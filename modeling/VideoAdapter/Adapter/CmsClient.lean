import Std.Data.ExtTreeMap
import VideoAdapter.Adapter.Global
import VideoAdapter.Adapter.Message

namespace VideoAdapter.Adapter

-- state: 0 off line, 1 online, 2 pushing
structure DeviceNode where
  pid : String := ""
  name : String := ""
  token : String := ""
  state : Int := 1
  allday : Int := 1
  s0 : String := ""
  e0 : String := ""
  s1 : String := ""
  e1 : String := ""
  key : String := ""
deriving DecidableEq, Repr

abbrev DevList := Std.ExtTreeMap String DeviceNode

structure MessageNode where
  iType : Int
  seqnum : Int
  timestamp : UInt64
  buf : Bytes
deriving DecidableEq, Repr

structure CMSClient where
  fd : Int
  cmsid : String
  livecount : UInt64
  devlist : DevList
  msglist : List MessageNode

-- `devlist_[pid]` inserts a null pointer for an unknown id, and the read of `state_`
-- through it ends the process: there is no result then.
def getState (devlist : DevList) (pid : String) : Option Int :=
  devlist[pid]?.map (·.state)

-- The record `AddCamera` builds: off line, and without a key or a token.
def newCamera (pid name : String) (allday : Int) (s0 e0 s1 e1 : String) : DeviceNode :=
  let p : DeviceNode := { pid, name, state := 0, allday }
  if allday = 0 then { p with s0, e0, s1, e1 } else p

theorem newCamera_pid (pid name : String) (allday : Int) (s0 e0 s1 e1 : String) :
    (newCamera pid name allday s0 e0 s1 e1).pid = pid := by
  unfold newCamera
  split <;> rfl

theorem newCamera_key (pid name : String) (allday : Int) (s0 e0 s1 e1 : String) :
    (newCamera pid name allday s0 e0 s1 e1).key = "" := by
  unfold newCamera
  split <;> rfl

theorem newCamera_state (pid name : String) (allday : Int) (s0 e0 s1 e1 : String) :
    (newCamera pid name allday s0 e0 s1 e1).state = 0 := by
  unfold newCamera
  split <;> rfl

def addCamera (devlist : DevList) (pid name : String) (allday : Int) (s0 e0 s1 e1 : String) : DevList :=
  devlist.insert pid (newCamera pid name allday s0 e0 s1 e1)

def delCamera (devlist : DevList) (pid : String) : DevList := devlist.erase pid

def modifyCamera (devlist : DevList) (pid : String) (allday : Int) (s0 e0 s1 e1 : String) : DevList :=
  devlist.modify pid fun p => { p with allday, s0, e0, s1, e1 }

-- The array the frame body was received into.
def MAX_BUF_SIZE : Nat := 10 * 1024

def stateItems (buf : Bytes) : List StateItem :=
  (List.range (intAt buf 0).toNat).map fun i => .decode (buf.drop (4 + sizeofStateItem * i))

def setState (devlist : DevList) (item : StateItem) : DevList :=
  devlist.modify item.pid fun p => { p with state := item.flag }

-- An empty body reaches this function as a null pointer, and a count beyond the
-- receive array makes the loop read outside it: no result in these two cases.
def handleUpdateChange (devlist : DevList) (buf : Bytes) : Option DevList :=
  if buf = [] ∨ (MAX_BUF_SIZE : Int) < 4 + sizeofStateItem * intAt buf 0 then none
  else some ((stateItems buf).foldl setState devlist)

-- What one request to the adapter returns: the code, the two reference arguments,
-- and whether `pServer_->DelClient(fd_)` was called on the way.
structure NotifyResult where
  ret : Int
  result : String
  token : String := ""
  lost : Bool := false
deriving DecidableEq, Repr

-- What the world contributes to one `NotifyPush`: the random draws of this second,
-- whether the frame was sent whole, and the body that `WaitforResponse` returns.
structure PushEnv where
  draws : Nat → Nat
  sent : Bool
  answer : Option Bytes

def pushError (result : Int) : String :=
  if result = 200 then "camera id invalid!"
  else if result = 300 then "camera offline!"
  else if result = 400 then "adapter client rtsp module error!"
  else "unknow error!"

def pushRequest (devid : String) (draws : Nat → Nat) : Outgoing :=
  .reqPush (generalSeqnumber draws) devid (generalToken draws 10)

-- The record after a successful answer.
def DeviceNode.pushing (p : DeviceNode) (token key : String) : DeviceNode :=
  { p with token, key, state := 2 }

def notifyPush (devlist : DevList) (devid : String) (env : PushEnv) :
    NotifyResult × DevList × List Outgoing :=
  match devlist[devid]? with
  | none => ({ ret := -1, result := "camera id invalid!" }, devlist, [])
  | some pItem =>
      if pItem.state = 2 then ({ ret := 0, result := "success!", token := pItem.token }, devlist, [])
      else if !env.sent then
        ({ ret := -1, result := "network error!", lost := true }, devlist, [])
      else
        let request := [pushRequest devid env.draws]
        match env.answer.map RespPush.decode with
        | none => ({ ret := -1, result := "notify to start push time out!" }, devlist, request)
        | some resp =>
            if resp.result = 100 then
              ({ ret := 0, result := "success!", token := resp.token },
                devlist.insert devid (pItem.pushing resp.token (generalToken env.draws 10)), request)
            else ({ ret := -1, result := pushError resp.result }, devlist, request)

structure StopEnv where
  draws : Nat → Nat
  sent : Bool
  answered : Bool

def notifyStopPush (devlist : DevList) (devid : String) (env : StopEnv) :
    NotifyResult × DevList × List Outgoing :=
  match devlist[devid]? with
  | none => ({ ret := -1, result := "camera id invalid!" }, devlist, [])
  | some pItem =>
      if pItem.state ≠ 2 then
        ({ ret := -1, result := "camera is  not in pushing state!" }, devlist, [])
      else if !env.sent then
        ({ ret := -1, result := "adapter client network error!", lost := true }, devlist, [])
      else
        let request := [Outgoing.reqStopPush (generalSeqnumber env.draws) devid]
        if env.answered then
          ({ ret := 0, result := "success!" }, devlist.insert devid { pItem with state := 1 }, request)
        else ({ ret := -3, result := "adapter client time out!" }, devlist, request)

-- The devices a `CheckState` pass stops. `outside` says which records have a first
-- window and a current time outside their windows.
def stopped (outside : DeviceNode → Bool) (p : DeviceNode) : Bool :=
  p.state = 2 ∧ p.allday = 0 ∧ outside p

def stopDue (outside : DeviceNode → Bool) (devlist : DevList) : DevList :=
  devlist.map fun _ p => if stopped outside p then { p with state := 1 } else p

-- Whether the client is kept, its new state, and the frame that was sent.
def CMSClient.checkState (client : CMSClient) (cur : UInt64) (outside : DeviceNode → Bool)
    (sent : Bool) : Bool × CMSClient × List Outgoing :=
  if cur - client.livecount > 20 * 1000 then (false, client, [])
  else
    let pids := (client.devlist.values.filter (stopped outside)).map (·.pid)
    let client := { client with devlist := stopDue outside client.devlist }
    if pids = [] then (true, client, [])
    else if sent then (true, client, [.groupStopPush pids])
    else (false, client, [])

def checkPush (devlist : DevList) (pid key : String) : Bool :=
  match devlist[pid]? with
  | none => false
  | some p => p.key = key

end VideoAdapter.Adapter

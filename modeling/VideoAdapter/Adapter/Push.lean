import VideoAdapter.Lib.Run
import VideoAdapter.Adapter.Server

namespace VideoAdapter.Adapter

open Lib

-- Where a call of `NotifyPush` stands. Between two of these points it does one thing that
-- other threads see: a region under `devlock_` or `lock_`, the send, or the writes to the
-- device record after the answer, which are made without a lock.
inductive PushPc where
  | lookup
  | send (pItem : Nat)
  | refresh (pItem : Nat) (seq : Int) (push_key : String)
  | poll (pItem : Nat) (seq : Int) (push_key : String) (cur : UInt64)
  | store (pItem : Nat) (push_key : String) (resp : RespPush)
  | done (res : NotifyResult) (stored : Option RespPush)
deriving DecidableEq, Repr

structure PushCall where
  devid : String
  pc : PushPc
deriving DecidableEq, Repr

-- A `REQ_PUSH` frame on its way, the call that sent it, and the body of the adapter's
-- answer once there is one.
structure PushRequest where
  call : Nat
  devid : String
  seq : Int
  key : String
  answer : Option Bytes := none
deriving DecidableEq, Repr

-- One connected adapter with the calls in progress on it. Device records are reached
-- through pointers; `none` is a deleted record. The requests belong to the adapter's side.
structure PushClient where
  nodes : List (Option DeviceNode) := []
  devlist : Std.ExtTreeMap String Nat := ∅
  msglist : List MessageNode := []
  calls : List PushCall := []
  requests : List PushRequest := []

-- What the world contributes to one step of a call: the random draws of this second,
-- whether the frame was sent whole, and the tick.
structure PushStepEnv where
  draws : Nat → Nat
  sent : Bool
  tick : UInt64

inductive PushEvent where
  | call (devid : String)
  | advance (call : Nat) (env : PushStepEnv)
  | answer (request : Nat) (body : Bytes) (tick : UInt64)
  | receive (cmd seq : Int) (body : Bytes) (tick : UInt64)
  | addCamera (pid name : String) (allday : Int) (s0 e0 s1 e1 : String)
  | delCamera (pid : String)
  | modifyCamera (pid : String) (allday : Int) (s0 e0 s1 e1 : String)
  | stopAnswered (pItem : Nat)
  | checkState (outside : DeviceNode → Bool)

inductive PushOutput where
  | sent (frame : Outgoing)
  | stored (devid : String) (push_key : String)
  | delClient
deriving DecidableEq, Repr

namespace PushClient

-- A read through a pointer: no result for a deleted record.
def node (m : PushClient) (p : Nat) : Option DeviceNode := m.nodes[p]?.join

-- The record of a device, as a search in `devlist_` reaches it.
def device (m : PushClient) (pid : String) : Option DeviceNode := m.devlist[pid]?.bind m.node

def goto (m : PushClient) (i : Nat) (pc : PushPc) : PushClient :=
  { m with calls := m.calls.modify i fun call => { call with pc } }

def finish (m : PushClient) (i : Nat) (res : NotifyResult) : PushClient := m.goto i (.done res none)

def lookup (m : PushClient) (i : Nat) (devid : String) : Option PushClient :=
  match m.devlist[devid]? with
  | none => some (m.finish i { ret := -1, result := "camera id invalid!" })
  | some p =>
      (m.node p).map fun pItem =>
        if pItem.state = 2 then
          m.finish i { ret := 0, result := "success!", token := pItem.token }
        else m.goto i (.send p)

def send (m : PushClient) (i : Nat) (devid : String) (p : Nat) (env : PushStepEnv) :
    PushClient × List PushOutput :=
  let seq := generalSeqnumber env.draws
  let push_key := generalToken env.draws 10
  if env.sent then
    (goto { m with requests := m.requests ++ [⟨i, devid, seq, push_key, none⟩] } i
      (.refresh p seq push_key), [.sent (pushRequest devid env.draws)])
  else (m.finish i { ret := -1, result := "network error!", lost := true }, [.delClient])

-- The messages that have waited for more than six seconds are dropped.
def refresh (m : PushClient) (i : Nat) (p : Nat) (seq : Int) (push_key : String) (tick : UInt64) :
    PushClient :=
  goto { m with msglist := m.msglist.filter fun pNode => !(tick - pNode.timestamp > 6000) } i
    (.poll p seq push_key tick)

def isAnswer (seq : Int) (pNode : MessageNode) : Bool :=
  pNode.iType = RESP_PUSH ∧ pNode.seqnum = seq

-- One round of the polling loop. A body longer than the structure it is copied to runs
-- over it: no result then.
def poll (m : PushClient) (i : Nat) (p : Nat) (seq : Int) (push_key : String) (cur tick : UInt64) :
    Option PushClient :=
  if tick - cur > 12 * 1000 then
    some (m.finish i { ret := -1, result := "notify to start push time out!" })
  else match m.msglist.find? (isAnswer seq) with
    | none => some m
    | some pNode =>
        if sizeofRespPush < pNode.buf.length then none
        else
          let resp := RespPush.decode pNode.buf
          let m := { m with msglist := m.msglist.eraseP (isAnswer seq) }
          if resp.result = 100 then some (m.goto i (.store p push_key resp))
          else some (m.finish i { ret := -1, result := pushError resp.result })

def store (m : PushClient) (i : Nat) (p : Nat) (push_key : String) (resp : RespPush) :
    Option PushClient :=
  (m.node p).map fun pItem =>
    goto { m with nodes := m.nodes.set p (some (pItem.pushing resp.token push_key)) } i
      (.done { ret := 0, result := "success!", token := resp.token } (some resp))

def advance (m : PushClient) (i : Nat) (env : PushStepEnv) : Option (PushClient × List PushOutput) :=
  match m.calls[i]? with
  | none => none
  | some call =>
      match call.pc with
      | .lookup => (m.lookup i call.devid).map (·, [])
      | .send p => some (m.send i call.devid p env)
      | .refresh p seq push_key => some (m.refresh i p seq push_key env.tick, [])
      | .poll p seq push_key cur => (m.poll i p seq push_key cur env.tick).map (·, [])
      | .store p push_key resp =>
          (m.store i p push_key resp).map (·, [.stored call.devid push_key])
      | .done _ _ => none

def insertMsg (m : PushClient) (iType seqnum : Int) (buf : Bytes) (tick : UInt64) : PushClient :=
  if buf = [] then m
  else { m with msglist := m.msglist ++ [{ iType, seqnum, timestamp := tick, buf }] }

-- Each request is answered at most once, with a frame that echoes its sequence number.
def answer (m : PushClient) (r : Nat) (body : Bytes) (tick : UInt64) : Option PushClient :=
  match m.requests[r]? with
  | none => none
  | some request =>
      if request.answer.isSome then none
      else some (insertMsg { m with requests := m.requests.set r { request with answer := some body } }
        RESP_PUSH request.seq body tick)

-- A write through a pointer found under the lock.
def modifyNode (m : PushClient) (p : Nat) (f : DeviceNode → DeviceNode) : PushClient :=
  { m with nodes := m.nodes.modify p (Option.map f) }

def setState (m : PushClient) (item : StateItem) : PushClient :=
  match m.devlist[item.pid]? with
  | none => m
  | some p => m.modifyNode p fun node => { node with state := item.flag }

def handleUpdateChange (m : PushClient) (buf : Bytes) : Option PushClient :=
  if buf = [] ∨ (MAX_BUF_SIZE : Int) < 4 + sizeofStateItem * intAt buf 0 then none
  else some ((stateItems buf).foldl setState m)

def receive (m : PushClient) (cmd seq : Int) (body : Bytes) (tick : UInt64) : Option PushClient :=
  if cmd = KEEP_ALIVE then some m
  else if cmd = UPDATE_CHANGE then m.handleUpdateChange body
  else some (m.insertMsg cmd seq body tick)

-- A device that is added again gets a new record; the old one is not deleted.
def addCamera (m : PushClient) (pid name : String) (allday : Int) (s0 e0 s1 e1 : String) :
    PushClient :=
  { m with
    nodes := m.nodes ++ [some (newCamera pid name allday s0 e0 s1 e1)]
    devlist := m.devlist.insert pid m.nodes.length }

def delCamera (m : PushClient) (pid : String) : PushClient :=
  match m.devlist[pid]? with
  | none => m
  | some p => { m with nodes := m.nodes.set p none, devlist := m.devlist.erase pid }

def modifyCamera (m : PushClient) (pid : String) (allday : Int) (s0 e0 s1 e1 : String) : PushClient :=
  match m.devlist[pid]? with
  | none => m
  | some p => m.modifyNode p fun node => { node with allday, s0, e0, s1, e1 }

def stopAnswered (m : PushClient) (p : Nat) : Option PushClient :=
  (m.node p).map fun _ => m.modifyNode p fun node => { node with state := 1 }

def stopDue (m : PushClient) (outside : DeviceNode → Bool) : PushClient :=
  { m with
    nodes := m.nodes.zipIdx.map fun (cell, p) => cell.map fun node =>
      if p ∈ m.devlist.values ∧ stopped outside node then { node with state := 1 } else node }

def checkPush (m : PushClient) (pid key : String) : Bool :=
  match m.device pid with
  | none => false
  | some node => node.key = key

-- The device table as it stands after a login.
def loggedIn (rows : List TBDeviceEx) : PushClient :=
  rows.foldl (fun m r => m.addCamera r.pid r.name r.allday r.s0 r.e0 r.s1 r.e1) {}

end PushClient

def pushStep (m : PushClient) : PushEvent → Option (PushClient × List PushOutput)
  | .call devid => some ({ m with calls := m.calls ++ [⟨devid, .lookup⟩] }, [])
  | .advance i env => m.advance i env
  | .answer r body tick => (m.answer r body tick).map (·, [])
  | .receive cmd seq body tick => (m.receive cmd seq body tick).map (·, [])
  | .addCamera pid name allday s0 e0 s1 e1 => some (m.addCamera pid name allday s0 e0 s1 e1, [])
  | .delCamera pid => some (m.delCamera pid, [])
  | .modifyCamera pid allday s0 e0 s1 e1 => some (m.modifyCamera pid allday s0 e0 s1 e1, [])
  | .stopAnswered p => (m.stopAnswered p).map (·, [])
  | .checkState outside => some (m.stopDue outside, [])

-- The registered adapters, each with the calls in progress on it.
structure PushEntry where
  fd : Int
  cmsid : String
  client : PushClient

structure PushServer where
  clientlist : List PushEntry := []

inductive PushServerEvent where
  | login (fd : Int) (cmsid : String) (rows : List TBDeviceEx)
  | client (fd : Int) (event : PushEvent)
  | delClient (fd : Int)
  | writeoff (cmsid : String)

namespace PushServer

def getClient (srv : PushServer) (cmsid : String) : Option PushEntry :=
  srv.clientlist.find? fun p => p.cmsid = cmsid

def findClient (srv : PushServer) (fd : Int) : Option PushEntry :=
  srv.clientlist.find? fun p => p.fd = fd

def delClient (srv : PushServer) (fd : Int) : PushServer :=
  ⟨updateFirst (fun p => p.fd = fd) (fun _ => none) srv.clientlist⟩

def delClientById (srv : PushServer) (cmsid : String) : PushServer :=
  ⟨updateFirst (fun p => p.cmsid = cmsid) (fun _ => none) srv.clientlist⟩

def setClient (srv : PushServer) (fd : Int) (client : PushClient) : PushServer :=
  ⟨updateFirst (fun p => p.fd = fd) (fun p => some { p with client }) srv.clientlist⟩

-- A login on a descriptor that has no client yet; an id that is in use is refused.
def login (srv : PushServer) (fd : Int) (cmsid : String) (rows : List TBDeviceEx) : PushServer :=
  if (srv.findClient fd).isSome ∨ (srv.getClient cmsid).isSome then srv
  else ⟨srv.clientlist ++ [⟨fd, cmsid, .loggedIn rows⟩]⟩

-- "0" allows the push, "1" refuses it
def checkPush (srv : PushServer) (cmsid devid key : String) : String :=
  match srv.getClient cmsid with
  | none => "1"
  | some pClient => if pClient.client.checkPush devid key then "0" else "1"

end PushServer

def pushServerStep (srv : PushServer) : PushServerEvent → Option (PushServer × List PushOutput)
  | .login fd cmsid rows => some (srv.login fd cmsid rows, [])
  | .client fd event =>
      match srv.findClient fd with
      | none => none
      | some p =>
          (pushStep p.client event).map fun (client, out) =>
            (if .delClient ∈ out then srv.delClient fd else srv.setClient fd client, out)
  | .delClient fd => some (srv.delClient fd, [])
  | .writeoff cmsid => some (srv.delClientById cmsid, [])

end VideoAdapter.Adapter

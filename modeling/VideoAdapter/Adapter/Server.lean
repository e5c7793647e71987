import VideoAdapter.Lib.FirstMatch
import VideoAdapter.Adapter.CmsClient

namespace VideoAdapter.Adapter

open Lib

structure TcpServer where
  clientlist : List CMSClient

-- A frame sent on a descriptor.
abbrev Sent := Int × Outgoing

namespace TcpServer

def getClient (srv : TcpServer) (cmsid : String) : Option CMSClient :=
  srv.clientlist.find? fun p => p.cmsid = cmsid

def findClient (srv : TcpServer) (fd : Int) : Option CMSClient :=
  srv.clientlist.find? fun p => p.fd = fd

def delClient (srv : TcpServer) (fd : Int) : TcpServer :=
  ⟨updateFirst (fun p => p.fd = fd) (fun _ => none) srv.clientlist⟩

def delClientById (srv : TcpServer) (cmsid : String) : TcpServer :=
  ⟨updateFirst (fun p => p.cmsid = cmsid) (fun _ => none) srv.clientlist⟩

-- Writes through the pointer that `GetClient(cmsid)` returned.
def setDevlist (srv : TcpServer) (cmsid : String) (devlist : DevList) : TcpServer :=
  ⟨updateFirst (fun p => p.cmsid = cmsid) (fun p => some { p with devlist }) srv.clientlist⟩

-- Writes through the pointer found for a descriptor.
def onClient (srv : TcpServer) (fd : Int) (f : CMSClient → CMSClient) : TcpServer :=
  ⟨updateFirst (fun p => p.fd = fd) (fun p => some (f p)) srv.clientlist⟩

theorem findClient_onClient {srv : TcpServer} {fd : Int} {pClient : CMSClient}
    {f : CMSClient → CMSClient} (hf : ∀ p, (f p).fd = p.fd)
    (hclient : srv.findClient fd = some pClient) :
    (srv.onClient fd f).findClient fd = some (f pClient) := by
  refine find?_updateFirst ?_ hclient rfl
  intro p p' hp hp'
  obtain rfl := Option.some.inj hp'
  simpa [hf] using hp

end TcpServer

-- `db` is what `check_start_push` returns.
structure StartEnv where
  db : Int
  push : PushEnv

namespace AdapterServer

-- 100 adapter client offline, 101 device offline, 102 device not playing, 200 playing
def checkStatus (srv : TcpServer) (cmsid devid : String) : Option Int :=
  match srv.getClient cmsid with
  | none => some 100
  | some pClient =>
      (getState pClient.devlist devid).map fun istatus =>
        if istatus = 0 then 101 else if istatus = 1 then 102 else 200

theorem checkStatus_cases {srv : TcpServer} {c d : String} {n : Int}
    (h : checkStatus srv c d = some n) : n = 100 ∨ n = 101 ∨ n = 102 ∨ n = 200 := by
  unfold checkStatus at h
  split at h
  · exact .inl (Option.some.inj h).symm
  · obtain ⟨state, -, rfl⟩ := Option.map_eq_some_iff.mp h
    split_ifs <;> simp

def invalidParameter : String := "\x7b\"code\":200,\"result\":\"invalid parameter!\"\x7d"

def startPushError (db : Int) : String :=
  if db = 1 then "database err!"
  else if db = 2 then "device not exist!"
  else if db = 3 then "camera is not valid at this time!"
  else "error known!"

-- What one request to a client does to the server: `DelClient` on a failed send,
-- else a write to the client's device table.
def afterNotify (srv : TcpServer) (pClient : CMSClient)
    (out : NotifyResult × DevList × List Outgoing) : NotifyResult × TcpServer × List Sent :=
  (out.1, if out.1.lost then srv.delClient pClient.fd else srv.setDevlist pClient.cmsid out.2.1,
    out.2.2.map (pClient.fd, ·))

def notifyStartPush (srv : TcpServer) (cmsid deviceid : String) (env : StartEnv) :
    NotifyResult × TcpServer × List Sent :=
  if cmsid = "" ∨ deviceid = "" then ({ ret := -1, result := invalidParameter }, srv, [])
  else if env.db ≠ 0 then ({ ret := -1, result := startPushError env.db }, srv, [])
  else match srv.getClient cmsid with
    | none => ({ ret := -1, result := "start push fail, adapter client offline!" }, srv, [])
    | some pClient => afterNotify srv pClient (Adapter.notifyPush pClient.devlist deviceid env.push)

def notifyStopPush (srv : TcpServer) (cmsid deviceid : String) (env : StopEnv) :
    NotifyResult × TcpServer × List Sent :=
  if cmsid = "" ∨ deviceid = "" then ({ ret := -1, result := invalidParameter }, srv, [])
  else match srv.getClient cmsid with
    | none => ({ ret := -1, result := "" }, srv, [])
    | some pClient => afterNotify srv pClient (Adapter.notifyStopPush pClient.devlist deviceid env)

-- "0" allows the push, "1" refuses it
def checkPush (srv : TcpServer) (cmsid devid key : String) : String :=
  match srv.getClient cmsid with
  | none => "1"
  | some pClient => if Adapter.checkPush pClient.devlist devid key then "0" else "1"

end AdapterServer

-- A camera row as `get_group_info_ex` loads it.
structure TBDeviceEx where
  pid : String
  name : String
  allday : Int
  s0 : String := ""
  e0 : String := ""
  s1 : String := ""
  e1 : String := ""
deriving DecidableEq, Repr

-- What the world contributes to one frame: the tick, the outcome of `check_login`
-- with the id it returns, the rows of `get_group_info_ex` (none for a negative
-- result) and whether the answer was sent whole.
structure FrameEnv where
  tick : UInt64
  checkLogin : Int
  strkid : String
  rows : Option (List TBDeviceEx)
  sent : Bool

def loadRows (rows : List TBDeviceEx) : DevList :=
  rows.foldl (fun devlist r => addCamera devlist r.pid r.name r.allday r.s0 r.e0 r.s1 r.e1) ∅

def TcpServer.addClient (srv : TcpServer) (client : CMSClient) : TcpServer :=
  ⟨srv.clientlist ++ [client]⟩

-- The result code, the server with the new client, and the loaded rows.
def loginCheck (srv : TcpServer) (fd : Int) (cmsid : String) (env : FrameEnv) :
    Int × TcpServer × List TBDeviceEx :=
  if (srv.getClient cmsid).isSome then (4, srv, [])
  else if env.checkLogin ≠ 0 then (env.checkLogin, srv, [])
  else match env.rows with
    | none => (0, srv, [])
    | some rows =>
        (0, srv.addClient { fd, cmsid, livecount := env.tick, devlist := loadRows rows, msglist := [] },
          rows)

def handleLoginEx (srv : TcpServer) (fd seq : Int) (buf : Bytes) (env : FrameEnv) :
    TcpServer × List Sent :=
  let (ret, srv, rows) := loginCheck srv fd (ReqLogin.decode buf).cmsid env
  if env.sent then
    (srv, [(fd, .respLogin seq ret rows.length (if ret = 0 then env.strkid else "") (rows.map (·.pid)))])
  else (srv.delClient fd, [])

def updateLivecount (srv : TcpServer) (fd seq : Int) (env : FrameEnv) : TcpServer × List Sent :=
  let srv := srv.onClient fd fun p => { p with livecount := env.tick }
  if env.sent then (srv, [(fd, .keepAliveRe seq)]) else (srv.delClient fd, [])

def CMSClient.insertMsg (client : CMSClient) (iType seqnum : Int) (buf : Bytes) (tick : UInt64) :
    CMSClient :=
  if buf = [] then client
  else { client with msglist := client.msglist ++ [{ iType, seqnum, timestamp := tick, buf }] }

-- One received frame. An unknown descriptor is closed unless the frame is a login
-- of the right size; that changes no client.
def handlerRead (srv : TcpServer) (fd cmd seq : Int) (buf : Bytes) (env : FrameEnv) :
    Option (TcpServer × List Sent) :=
  match srv.findClient fd with
  | none =>
      if cmd ≠ REQ_LOGIN ∨ buf.length ≠ sizeofReqLogin then some (srv, [])
      else some (handleLoginEx srv fd seq buf env)
  | some pClient =>
      if cmd = KEEP_ALIVE then some (updateLivecount srv fd seq env)
      else if cmd = UPDATE_CHANGE then
        (handleUpdateChange pClient.devlist buf).map fun devlist =>
          (srv.onClient fd fun p => { p with devlist }, [])
      else some (srv.onClient fd fun p => p.insertMsg cmd seq buf env.tick, [])

-- What `HandlerRead` does with a frame, by its connection and its command.
inductive FrameMove (srv : TcpServer) (fd cmd seq : Int) (buf : Bytes) (env : FrameEnv) :
    TcpServer → List Sent → Prop
  | refused (hnew : srv.findClient fd = none)
      (hother : cmd ≠ REQ_LOGIN ∨ buf.length ≠ sizeofReqLogin) :
      FrameMove srv fd cmd seq buf env srv []
  | login {after : TcpServer} {out : List Sent} (hnew : srv.findClient fd = none)
      (hcmd : cmd = REQ_LOGIN) (hsize : buf.length = sizeofReqLogin)
      (h : handleLoginEx srv fd seq buf env = (after, out)) :
      FrameMove srv fd cmd seq buf env after out
  | keepAlive {pClient : CMSClient} {after : TcpServer} {out : List Sent}
      (hclient : srv.findClient fd = some pClient) (hcmd : cmd = KEEP_ALIVE)
      (h : updateLivecount srv fd seq env = (after, out)) :
      FrameMove srv fd cmd seq buf env after out
  | updateChange {pClient : CMSClient} {devlist : DevList}
      (hclient : srv.findClient fd = some pClient) (hcmd : cmd = UPDATE_CHANGE)
      (h : handleUpdateChange pClient.devlist buf = some devlist) :
      FrameMove srv fd cmd seq buf env (srv.onClient fd fun p => { p with devlist }) []
  | message {pClient : CMSClient} (hclient : srv.findClient fd = some pClient)
      (halive : cmd ≠ KEEP_ALIVE) (hchange : cmd ≠ UPDATE_CHANGE) :
      FrameMove srv fd cmd seq buf env (srv.onClient fd fun p => p.insertMsg cmd seq buf env.tick) []

theorem handlerRead_move {srv after : TcpServer} {fd cmd seq : Int} {buf : Bytes} {env : FrameEnv}
    {out : List Sent} (h : handlerRead srv fd cmd seq buf env = some (after, out)) :
    FrameMove srv fd cmd seq buf env after out := by
  unfold handlerRead at h
  split at h
  · rename_i hnew
    split at h
    · rename_i hother
      cases h
      exact .refused hnew hother
    · rename_i hlogin
      obtain ⟨hcmd, hsize⟩ := not_or.mp hlogin
      exact .login hnew (not_not.mp hcmd) (not_not.mp hsize) (Option.some.inj h)
  · rename_i hclient
    split at h
    · rename_i hcmd
      exact .keepAlive hclient hcmd (Option.some.inj h)
    · rename_i halive
      split at h
      · rename_i hcmd
        obtain ⟨devlist, hchange, he⟩ := Option.map_eq_some_iff.mp h
        cases he
        exact .updateChange hclient hcmd hchange
      · rename_i hchange
        cases h
        exact .message hclient halive hchange

-- The adapter side of the service: frames, camera requests, the periodic pass of
-- `TcpServer::Run` and removals.
inductive AdapterEvent where
  | frame (fd cmd seq : Int) (buf : Bytes) (env : FrameEnv)
  | addCamera (cmsid pid name : String) (allday : Int) (s0 e0 s1 e1 : String)
      (draws : Nat → Nat) (sent : Bool)
  | delCamera (cmsid pid : String) (draws : Nat → Nat) (sent : Bool)
  | modifyCamera (cmsid pid : String) (allday : Int) (s0 e0 s1 e1 : String)
  | checkState (cur : Int → UInt64) (outside : DeviceNode → Bool) (sent : Int → Bool)
  | delClient (fd : Int)
  | writeoff (cmsid : String)

-- `NOTIFY_DEVICE_CHANGE` after a change of the table; a failed send drops the client.
def TcpServer.notifyChange (srv : TcpServer) (pClient : CMSClient) (devlist : DevList)
    (type : Int) (pid : String) (draws : Nat → Nat) (sent : Bool) : TcpServer × List Sent :=
  if sent then
    (srv.setDevlist pClient.cmsid devlist,
      [(pClient.fd, .notifyDeviceChange (generalSeqnumber draws) type pid)])
  else ((srv.setDevlist pClient.cmsid devlist).delClient pClient.fd, [])

def TcpServer.checkStates (srv : TcpServer) (cur : Int → UInt64) (outside : DeviceNode → Bool)
    (sent : Int → Bool) : TcpServer × List Sent :=
  let passes := srv.clientlist.map fun p => p.checkState (cur p.fd) outside (sent p.fd)
  (⟨passes.filterMap fun (kept, p, _) => if kept then some p else none⟩,
    passes.flatMap fun (_, p, frames) => frames.map (p.fd, ·))

def adapterStep (srv : TcpServer) : AdapterEvent → Option (TcpServer × List Sent)
  | .frame fd cmd seq buf env => handlerRead srv fd cmd seq buf env
  | .addCamera cmsid pid name allday s0 e0 s1 e1 draws sent =>
      match srv.getClient cmsid with
      | none => some (srv, [])
      | some p => some (srv.notifyChange p (Adapter.addCamera p.devlist pid name allday s0 e0 s1 e1)
          1 pid draws sent)
  | .delCamera cmsid pid draws sent =>
      match srv.getClient cmsid with
      | none => some (srv, [])
      | some p =>
          if p.devlist[pid]?.isNone then some (srv, [])
          else some (srv.notifyChange p (Adapter.delCamera p.devlist pid) 0 pid draws sent)
  | .modifyCamera cmsid pid allday s0 e0 s1 e1 =>
      match srv.getClient cmsid with
      | none => some (srv, [])
      | some p => some (srv.setDevlist cmsid (Adapter.modifyCamera p.devlist pid allday s0 e0 s1 e1), [])
  | .checkState cur outside sent => some (srv.checkStates cur outside sent)
  | .delClient fd => some (srv.delClient fd, [])
  | .writeoff cmsid => some (srv.delClientById cmsid, [])

end VideoAdapter.Adapter

import VideoAdapter.Adapter.Server
import VideoAdapter.Wss.Json
import VideoAdapter.Wss.LiveRoom
import VideoAdapter.Wss.WebSocketServer

namespace VideoAdapter.Wss

open Adapter

-- The play manager together with the adapter server behind `handler_`.
structure Service where
  connections : Connections
  rooms : Std.ExtTreeMap String LiveRoom
  server : TcpServer

-- What an operation does to the outside: a message put into a viewer's buffer, a call
-- of `handler_->stop_play`, a call of `onTimeout`, a message handed to `lws_write`
-- (and whether it was accepted whole), a frame sent to an adapter.
inductive Output where
  | reply (socketid : Int) (data : Reply)
  | stopPlay (cmsid devid : String)
  | timeout (socketid : Int) (roomid : String)
  | written (socketid : Int) (data : Reply) (whole : Bool)
  | sent (frame : Sent)
deriving DecidableEq, Repr

def offlineReply : Reply := { code := 103, result := some "camera offline!" }
def failReply (result : String) : Reply := { code := 104, result := some result }
def unexpectedReply : Reply := { code := 900, result := some "fail,unexcepted situationl!" }
def stopReply : Reply := { code := 201, result := some "stop play success!" }

def joinReply (rdy : Bool) (token : String) (count : Nat) : Reply :=
  { code := if rdy then 101 else 102, result := some (if rdy then "success" else "stream not ready!"),
    token := some token, num := some count }

def heartbeatReply (roomid : String) : Reply := { code := if roomid = "" then 302 else 301 }

namespace Service

def send (w : Service) (socketID : Int) (data : Reply) : Option (Service × List Output) :=
  (w.connections.send socketID data).map fun connections =>
    ({ w with connections }, if w.connections.registered socketID then [.reply socketID data] else [])

-- The end of a successful join: the answer, the room id and the timestamp.
def accept (w : Service) (socketid : Int) (roomid : String) (resp : Reply) (tick : UInt64) :
    Option (Service × List Output) := do
  let (w, out) ← w.send socketid resp
  let connections ← w.connections.setValue socketid "roomid" roomid
  let connections ← connections.updateTimestamp socketid tick
  return ({ w with connections }, out)

-- What the world contributes to one request: the outcome of `start_play` and the tick.
structure RequestEnv where
  start : StartEnv
  tick : UInt64

-- The branch of a join for a device that is not playing. The old room, if any, is
-- already deleted.
def startLiveroom (w : Service) (socketid : Int) (cmsid devid : String) (env : RequestEnv) :
    Option (Service × List Output) :=
  let start := AdapterServer.notifyStartPush w.server cmsid devid env.start
  let res := start.1
  let w := { w with server := start.2.1 }
  let answered :=
    if res.ret ≠ 0 then w.send socketid (failReply res.result)
    else
      let p := LiveRoom.join { cmsid, devid, token := res.token } socketid
      let w := { w with rooms := w.rooms.insert (cmsid ++ devid) p }
      w.accept socketid (cmsid ++ devid) (joinReply false res.token p.size) env.tick
  answered.map fun (w, out) => (w, start.2.2.map .sent ++ out)

def joinLiveroom (w : Service) (socketid : Int) (cmsid devid : String) (env : RequestEnv) :
    Option (Service × List Output) :=
  match AdapterServer.checkStatus w.server cmsid devid with
  | none => none
  | some ret =>
      let pRoom := w.rooms[cmsid ++ devid]?
      if ret = 100 ∨ ret = 101 then
        send { w with rooms := w.rooms.erase (cmsid ++ devid) } socketid offlineReply
      else if ret = 102 then
        startLiveroom { w with rooms := w.rooms.erase (cmsid ++ devid) } socketid cmsid devid env
      else if ret = 200 then
        match pRoom with
        | some room =>
            let room := room.join socketid
            let w := { w with rooms := w.rooms.insert (cmsid ++ devid) room }
            w.accept socketid (cmsid ++ devid) (joinReply room.rdy room.token room.size) env.tick
        | none => w.send socketid unexpectedReply
      else w.send socketid unexpectedReply

def quitLiveroom (w : Service) (socketid : Int) (cmsid devid : String) (env : RequestEnv) :
    Option (Service × List Output) :=
  match AdapterServer.checkStatus w.server cmsid devid with
  | none => none
  | some ret =>
      if ret = 200 then
        match w.rooms[cmsid ++ devid]? with
        | some room =>
            let w := { w with rooms := w.rooms.insert (cmsid ++ devid) (room.quit socketid env.tick) }
            (w.connections.setValue socketid "roomid" "").bind fun connections =>
              send { w with connections } socketid stopReply
        | none => w.send socketid stopReply
      else send { w with rooms := w.rooms.erase (cmsid ++ devid) } socketid stopReply

def heartbeat (w : Service) (socketid : Int) (tick : UInt64) : Option (Service × List Output) := do
  let connections ← w.connections.updateTimestamp socketid tick
  let roomid ← connections.getValue socketid "roomid"
  send { w with connections } socketid (heartbeatReply roomid)

def removeConnection (w : Service) (socketID : Int) : Service :=
  { w with connections := w.connections.removeConnection socketID }

-- `text` is what `reader.parse` makes of the message: no value if it refuses it.
def handleRequest (w : Service) (socketid : Int) (text : Option Json.Value) (env : RequestEnv) :
    Option (Service × List Output) :=
  match decodeRequest text with
  | .abort => none
  | .reject => some (w.removeConnection socketid, [])
  | .fields cmd cmsid devid =>
      if cmd = 100 then w.joinLiveroom socketid cmsid devid env
      else if cmd = 200 then w.quitLiveroom socketid cmsid devid env
      else if cmd = 300 then w.heartbeat socketid env.tick
      else some (w.removeConnection socketid, [])

-- The common body of `onTimeout` and `onDisconnect`.
def quitRoom (w : Service) (socketid : Int) (roomid : String) (tick : UInt64) : Service :=
  if roomid = "" then w
  else { w with rooms := w.rooms.modify roomid fun pRoom => pRoom.quit socketid tick }

def onConnectWrapper (w : Service) (socketID : Int) (tick : UInt64) : Option Service := do
  let connections : Connections := w.connections.insert socketID (some { socketid := socketID })
  let connections ← connections.setValue socketID "handle" ("User #" ++ toString socketID)
  let connections ← connections.updateTimestamp socketID tick
  return { w with connections }

def onDisconnectWrapper (w : Service) (socketID : Int) (tick : UInt64) : Option Service := do
  let roomid ← w.connections.getValue socketID "roomid"
  return (w.quitRoom socketID roomid tick).removeConnection socketID

-- Every message is popped before it is written, whether it is accepted or not. The
-- test `self->connections[fd]!=NULL` stores a null pointer for an unknown socket.
def writeable (w : Service) (fd : Int) (whole : Nat → Bool) : Service × List Output :=
  match w.connections[fd]? with
  | some (some c) =>
      ({ w with connections := w.connections.insert fd (some { c with buffer := [] }) },
        c.buffer.zipIdx.map fun (data, i) => .written fd data (whole i))
  | _ => ({ w with connections := w.connections.insert fd none }, [])

-- The loop of `CheckConnectionState` over the keys that are left. The iterator stays
-- on an entry that timed out, and passes it once its room id is empty.
def checkLoop (cur : UInt64) (tick : Int → UInt64) :
    Nat → List Int → Service → Option (Service × List Output)
  | 0, _, w => some (w, [])
  | _ + 1, [], w => some (w, [])
  | fuel + 1, key :: rest, w =>
      match w.connections[key]? with
      | none => checkLoop cur tick fuel rest w
      | some none => none
      | some (some c) =>
          let roomid := c.value "roomid"
          if cur - c.timestamp > 30 * 1000 ∧ roomid ≠ "" then
            let w := w.quitRoom c.socketid roomid (tick c.socketid)
            let w := { w with connections := w.connections.insert key (some (c.setValue "roomid" "")) }
            (checkLoop cur tick fuel (key :: rest) w).map fun (w, out) =>
              (w, .timeout c.socketid roomid :: out)
          else checkLoop cur tick fuel rest w

-- Two rounds for each entry and one to leave the loop.
def checkConnectionState (w : Service) (cur : UInt64) (tick : Int → UInt64) :
    Option (Service × List Output) :=
  checkLoop cur tick (2 * w.connections.keys.length + 1) w.connections.keys w

structure SweepEnv where
  tick : UInt64
  stop : StopEnv

-- The room sweep of `state_threadfunc`. The result of `stop_play` is not looked at.
def sweepLoop (env : String → SweepEnv) : List String → Service → Service × List Output
  | [], w => (w, [])
  | key :: rest, w =>
      match w.rooms[key]? with
      | none => sweepLoop env rest w
      | some p =>
          if p.size = 0 ∧ (env key).tick - p.timestamp > 60 * 1000 then
            let (_, server, frames) :=
              AdapterServer.notifyStopPush w.server p.cmsid p.devid (env key).stop
            let (w, out) := sweepLoop env rest { w with rooms := w.rooms.erase key, server }
            (w, .stopPlay p.cmsid p.devid :: (frames.map .sent ++ out))
          else sweepLoop env rest w

def sweep (w : Service) (env : String → SweepEnv) : Service × List Output :=
  sweepLoop env w.rooms.keys w

def broadcast (data : Reply) : List Int → Service → Option (Service × List Output)
  | [], w => some (w, [])
  | user :: rest, w => do
      let (w, out) ← w.send user data
      let (w, more) ← broadcast data rest w
      return (w, out ++ more)

def notifyHls (w : Service) (token : String) : Option (Service × List Output) :=
  match w.rooms.toList.find? fun (_, p) => p.token = token with
  | none => some (w, [])
  | some (key, p) =>
      broadcast (joinReply true p.token p.size) p.users
        { w with rooms := w.rooms.insert key { p with rdy := true } }

end Service

open Service (RequestEnv SweepEnv)

-- The operations of the service, each run to completion.
inductive Event where
  | established (socketID : Int) (tick : UInt64)
  | writeable (socketID : Int) (whole : Nat → Bool)
  | request (socketID : Int) (text : Option Json.Value) (env : RequestEnv)
  | closed (socketID : Int) (tick : UInt64)
  | checkConnectionState (cur : UInt64) (tick : Int → UInt64)
  | sweep (env : String → SweepEnv)
  | notifyHls (token : String)
  | adapter (event : AdapterEvent)

def step (w : Service) : Event → Option (Service × List Output)
  | .established socketID tick => (w.onConnectWrapper socketID tick).map (·, [])
  | .writeable socketID whole => some (w.writeable socketID whole)
  | .request socketID text env => w.handleRequest socketID text env
  | .closed socketID tick => (w.onDisconnectWrapper socketID tick).map (·, [])
  | .checkConnectionState cur tick => w.checkConnectionState cur tick
  | .sweep env => some (w.sweep env)
  | .notifyHls token => w.notifyHls token
  | .adapter event =>
      (adapterStep w.server event).map fun (server, frames) => ({ w with server }, frames.map .sent)

-- Nobody connected, no room, no adapter.
def initial : Service := { connections := ∅, rooms := ∅, server := ⟨[]⟩ }

-- Requests and reports as viewers and adapters send them, in a world where the adapter
-- answers every push with `token` and every stop.
def requestEnv (token : String) (tick : UInt64) : RequestEnv where
  start := ⟨0, ⟨fun _ => 0, true, some (RespPush.encode ⟨100, token⟩)⟩⟩
  tick := tick

def joinRequest (s : Int) (c d token : String) (tick : UInt64) : Event :=
  .request s (message 100 c d) (requestEnv token tick)

def quitRequest (s : Int) (c d : String) (tick : UInt64) : Event :=
  .request s (message 200 c d) (requestEnv "" tick)

def heartbeatRequest (s : Int) (tick : UInt64) : Event :=
  .request s (message 300 "" "") (requestEnv "" tick)

@[simp] theorem decodeRequest_join (c d : String) :
    decodeRequest (message 100 c d) = .fields 100 c d :=
  decodeRequest_message (by decide) (by decide) c d

@[simp] theorem decodeRequest_quit (c d : String) :
    decodeRequest (message 200 c d) = .fields 200 c d :=
  decodeRequest_message (by decide) (by decide) c d

def frameEnv (rows : List TBDeviceEx) : FrameEnv :=
  { tick := 0, checkLogin := 0, strkid := "", rows := some rows, sent := true }

def login (fd : Int) (cmsid : String) (pids : List String) : Event :=
  .adapter (.frame fd REQ_LOGIN 0 (ReqLogin.encode ⟨cmsid, ""⟩)
    (frameEnv (pids.map fun pid => { pid, name := pid, allday := 1 })))

def report (fd : Int) (pid : String) (flag : Int) : Event :=
  .adapter (.frame fd UPDATE_CHANGE 0 (encodeItems [⟨pid, flag⟩]) (frameEnv []))

def sweepAt (tick : UInt64) (answered : Bool) : Event :=
  .sweep fun _ => ⟨tick, ⟨fun _ => 0, true, answered⟩⟩

end VideoAdapter.Wss

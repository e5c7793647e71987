import Mathlib.Logic.Function.Basic
import VideoAdapter.Lib.Run
import VideoAdapter.Wss.PlayMngr

namespace VideoAdapter.Wss

open Adapter
open Service (RequestEnv SweepEnv)

abbrev History := List (Event × List Output)

-- Who is in which room: the rooms, the room id of every registered socket and the
-- adapter server. Buffers, timestamps and null entries are left out.
structure View where
  rooms : Std.ExtTreeMap String LiveRoom
  roomid : Int → Option String
  server : TcpServer

def Service.view (w : Service) : View := ⟨w.rooms, w.connections.roomid, w.server⟩

namespace View

def status (v : View) (cmsid devid : String) : Option Int :=
  AdapterServer.checkStatus v.server cmsid devid

-- The messages to a socket that reach its buffer.
def answer (v : View) (s : Int) (data : Reply) : List Output :=
  if (v.roomid s).isSome then [.reply s data] else []

-- `setValue(s,"roomid",k)` does nothing for a socket that is not registered.
def assign (v : View) (s : Int) (k : String) : View :=
  { v with roomid := Function.update v.roomid s ((v.roomid s).map fun _ => k) }

def setRoom (v : View) (k : String) (room : LiveRoom) : View :=
  { v with rooms := v.rooms.insert k room }

def eraseRoom (v : View) (k : String) : View := { v with rooms := v.rooms.erase k }

def register (v : View) (s : Int) (roomid : Option String) : View :=
  { v with roomid := Function.update v.roomid s roomid }

def withServer (v : View) (server : TcpServer) : View := { v with server }

def inRoom (v : View) (s : Int) (k : String) : Prop :=
  ∃ room : LiveRoom, v.rooms[k]? = some room ∧ s ∈ room.users

def leave (v : View) (s : Int) (k : String) (tick : UInt64) : View :=
  if k = "" then v
  else { v with rooms := v.rooms.modify k fun room => room.quit s tick }

end View

def startResult (v : View) (c d : String) (env : RequestEnv) : NotifyResult × TcpServer × List Sent :=
  AdapterServer.notifyStartPush v.server c d env.start

def newRoom (c d token : String) (s : Int) : LiveRoom :=
  { cmsid := c, devid := d, token, users := [s] }

-- A join that creates the room: the device is online but not pushing, and starts.
def View.starts (v : View) (c d : String) (env : RequestEnv) : Prop :=
  v.status c d = some 102 ∧ (startResult v c d env).1.ret = 0

-- A join or quit that finds the room of a playing device.
def View.finds (v : View) (c d : String) : Prop :=
  v.status c d = some 200 ∧ (v.rooms[c ++ d]?).isSome

-- The five ends of a join.
inductive JoinView (v : View) (s : Int) (c d : String) (env : RequestEnv) :
    List Output → View → Prop
  | offline (hs : v.status c d = some 100 ∨ v.status c d = some 101) :
      JoinView v s c d env (v.answer s offlineReply) (v.eraseRoom (c ++ d))
  | failed (hs : v.status c d = some 102) (hr : (startResult v c d env).1.ret ≠ 0) :
      JoinView v s c d env
        ((startResult v c d env).2.2.map .sent ++
          v.answer s (failReply (startResult v c d env).1.result))
        ((v.eraseRoom (c ++ d)).withServer (startResult v c d env).2.1)
  | started (hs : v.status c d = some 102) (hr : (startResult v c d env).1.ret = 0) :
      JoinView v s c d env
        ((startResult v c d env).2.2.map .sent ++
          v.answer s (joinReply false (startResult v c d env).1.token 1))
        (((v.setRoom (c ++ d) (newRoom c d (startResult v c d env).1.token s)).assign s (c ++ d)).withServer
          (startResult v c d env).2.1)
  | joined (room : LiveRoom) (hs : v.status c d = some 200) (hr : v.rooms[c ++ d]? = some room) :
      JoinView v s c d env
        (v.answer s (joinReply room.rdy room.token (room.join s).size))
        ((v.setRoom (c ++ d) (room.join s)).assign s (c ++ d))
  | unexpected (hs : v.status c d = some 200) (hr : v.rooms[c ++ d]? = none) :
      JoinView v s c d env (v.answer s unexpectedReply) v

inductive QuitView (v : View) (s : Int) (c d : String) (env : RequestEnv) : View → Prop
  | left (room : LiveRoom) (hs : v.status c d = some 200) (hr : v.rooms[c ++ d]? = some room) :
      QuitView v s c d env ((v.setRoom (c ++ d) (room.quit s env.tick)).assign s "")
  | noRoom (hs : v.status c d = some 200) (hr : v.rooms[c ++ d]? = none) : QuitView v s c d env v
  | notPlaying (n : Int) (hs : v.status c d = some n) (hn : n ≠ 200) :
      QuitView v s c d env (v.eraseRoom (c ++ d))

-- A pass of `CheckConnectionState`: some sockets with a room lose it.
inductive Timeouts : View → List Output → View → Prop
  | done {v : View} : Timeouts v [] v
  | next {v after : View} {out : List Output} (s : Int) (k : String) (tick : UInt64)
      (hk : v.roomid s = some k) (hne : k ≠ "")
      (rest : Timeouts ((v.leave s k tick).register s (some "")) out after) :
      Timeouts v (.timeout s k :: out) after

-- The same pass with the ticks its quits read.
inductive Expiries (tick : Int → UInt64) : View → List Output → View → Prop
  | done {v : View} : Expiries tick v [] v
  | next {v after : View} {out : List Output} (s : Int) (k : String)
      (hk : v.roomid s = some k) (hne : k ≠ "")
      (rest : Expiries tick ((v.leave s k (tick s)).register s (some "")) out after) :
      Expiries tick v (.timeout s k :: out) after

-- A sweep: the rooms that have been without users for a minute are stopped and erased.
inductive Sweep (env : String → SweepEnv) : View → List Output → View → Prop
  | done {v : View} : Sweep env v [] v
  | reap {v after : View} {out : List Output} (k : String) (room : LiveRoom)
      (hr : v.rooms[k]? = some room) (hempty : room.users = [])
      (hdue : (env k).tick - room.timestamp > 60 * 1000)
      (rest : Sweep env ((v.eraseRoom k).withServer
        (AdapterServer.notifyStopPush v.server room.cmsid room.devid (env k).stop).2.1) out after) :
      Sweep env v (.stopPlay room.cmsid room.devid ::
        ((AdapterServer.notifyStopPush v.server room.cmsid room.devid (env k).stop).2.2.map .sent ++ out))
        after

inductive HlsView (v : View) : View → Prop
  | unknown : HlsView v v
  | ready (k : String) (room : LiveRoom) (hr : v.rooms[k]? = some room) :
      HlsView v (v.setRoom k { room with rdy := true })

def heartbeatOutput (v : View) (s : Int) : List Output :=
  match v.roomid s with
  | none => []
  | some k => [.reply s (heartbeatReply k)]

-- Everything one operation can do to the view.
inductive ViewStep (v : View) : Event → List Output → View → Prop
  | established (s : Int) (tick : UInt64) :
      ViewStep v (.established s tick) [] (v.register s (some ""))
  | writeable (s : Int) (whole : Nat → Bool) (written : List (Int × Reply × Bool)) :
      ViewStep v (.writeable s whole) (written.map fun (s, data, b) => .written s data b) v
  | rejected (s : Int) (text : Option Json.Value) (env : RequestEnv)
      (ht : decodeRequest text = .reject) : ViewStep v (.request s text env) [] (v.register s none)
  | unknown (s : Int) (text : Option Json.Value) (env : RequestEnv) (cmd : Int) (c d : String)
      (ht : decodeRequest text = .fields cmd c d) (hj : cmd ≠ 100) (hq : cmd ≠ 200)
      (hb : cmd ≠ 300) : ViewStep v (.request s text env) [] (v.register s none)
  | join {out : List Output} {after : View} (s : Int) (text : Option Json.Value) (env : RequestEnv)
      (c d : String) (ht : decodeRequest text = .fields 100 c d) (h : JoinView v s c d env out after) :
      ViewStep v (.request s text env) out after
  | quit {after : View} (s : Int) (text : Option Json.Value) (env : RequestEnv) (c d : String)
      (ht : decodeRequest text = .fields 200 c d) (h : QuitView v s c d env after) :
      ViewStep v (.request s text env) (v.answer s stopReply) after
  | heartbeat (s : Int) (text : Option Json.Value) (env : RequestEnv) (c d : String)
      (ht : decodeRequest text = .fields 300 c d) :
      ViewStep v (.request s text env) (heartbeatOutput v s) v
  | closed (s : Int) (tick : UInt64) :
      ViewStep v (.closed s tick) []
        ((v.leave s ((v.roomid s).getD "") tick).register s none)
  | timeouts {out : List Output} {after : View} (cur : UInt64) (tick : Int → UInt64)
      (h : Timeouts v out after) : ViewStep v (.checkConnectionState cur tick) out after
  | sweep {out : List Output} {after : View} (env : String → SweepEnv)
      (h : Sweep env v out after) : ViewStep v (.sweep env) out after
  | hls {after : View} (token : String) (replies : List (Int × Reply)) (h : HlsView v after) :
      ViewStep v (.notifyHls token) (replies.map fun (s, data) => .reply s data) after
  | adapter (event : AdapterEvent) (srv : TcpServer) (frames : List Sent)
      (h : adapterStep v.server event = some (srv, frames)) :
      ViewStep v (.adapter event) (frames.map .sent) (v.withServer srv)

end VideoAdapter.Wss

import VideoAdapter.Lib.Locking
import VideoAdapter.Wss.PlayMngr

namespace VideoAdapter.Wss

open Lib

-- `slocker_` of the server, `roomlock_`, and `slocker_` of each room.
inductive PlayLock where
  | server
  | rooms
  | room (p : Nat)
deriving DecidableEq, Repr

-- What the calls share. Rooms are reached through pointers; with `none` in the heap a room is
-- deleted, and a step that follows the pointer has no result.
structure Play where
  connections : Connections := ∅
  rooms : Std.ExtTreeMap String Nat := ∅
  heap : List (Option LiveRoom) := []

-- What the world contributes to a step: the tick, and the answers of `handler_` to
-- `check_play_status` and to `start_play`, an error text or a token.
structure PlayEnv where
  tick : UInt64 := 0
  ret : Int := 0
  start : Except String String := .error ""

namespace Play

def room (m : Play) (p : Nat) : Option LiveRoom := m.heap[p]?.join

def write (m : Play) (p : Nat) (room : LiveRoom) : Play :=
  { m with heap := m.heap.set p (some room) }

-- `delete pRoom; rooms_.erase(iter)`
def delete (m : Play) (key : String) : Play :=
  match m.rooms[key]? with
  | none => m
  | some p => { m with rooms := m.rooms.erase key, heap := m.heap.set p none }

end Play

-- The functions of the connection table: each takes the server's mutex for itself. `getValue` is
-- here with the answer to a heartbeat, which is made of what it reads.
inductive ServerCall where
  | connect (socketID : Int)
  | setValue (socketID : Int) (name value : String)
  | updateTimestamp (socketID : Int)
  | heartbeat (socketID : Int)
  | send (socketID : Int) (data : Reply)
  | removeConnection (socketID : Int)
deriving DecidableEq, Repr

def ServerCall.exec (connections : Connections) (tick : UInt64) :
    ServerCall → Option (Connections × List ServerCall)
  | .connect socketID => some (connections.insert socketID (some { socketid := socketID }), [])
  | .setValue socketID name value => (connections.setValue socketID name value).map (·, [])
  | .updateTimestamp socketID => (connections.updateTimestamp socketID tick).map (·, [])
  | .heartbeat socketID => (connections.getValue socketID "roomid").map fun roomid =>
      (connections, [.send socketID (heartbeatReply roomid)])
  | .send socketID data => (connections.send socketID data).map (·, [])
  | .removeConnection socketID => some (connections.removeConnection socketID, [])

-- Where a call of `CheckConnectionState` stands: at the entry of a key, with the keys behind it.
inductive CheckPoint where
  | enter
  | loop (keys : List Int)
  | timeout (key : Int) (rest : List Int) (socketid : Int) (roomid : String)
  | quit (key : Int) (rest : List Int) (socketid : Int) (pRoom : Nat)
  | clear (key : Int) (rest : List Int)
deriving DecidableEq, Repr

-- Where a call of `NotifyHls` stands: in its loop, at an index of the room's `users_`.
inductive HlsPoint where
  | search (token : String)
  | ready (p : Nat)
  | size (p : Nat)
  | users (p isize : Nat)
  | loop (p : Nat) (resp : Reply) (i : Nat)
  | send (p : Nat) (resp : Reply) (i : Nat) (user : Int)
deriving DecidableEq, Repr

inductive JoinPoint where
  | check
  | lookup (ret : Int)
  | start
  | create (p : Nat) (token : String)
  | store (p : Nat) (token : String) (count : Nat)
  | found (pRoom : Nat)
  | joined (pRoom : Nat) (count : Nat)
deriving DecidableEq, Repr

inductive QuitPoint where
  | check
  | lookup (ret : Int)
  | found (pRoom : Nat)
deriving DecidableEq, Repr

inductive DisconnectPoint where
  | roomid
  | rooms (roomid : String)
  | quit (pRoom : Nat)
deriving DecidableEq, Repr

-- Where the room sweep stands: at the room of a key, with the tick it has read there.
inductive SweepPoint where
  | enter
  | loop (keys : List String)
  | size (key : String) (rest : List String) (p : Nat) (cur : UInt64)
  | reap (key : String) (rest : List String) (p : Nat) (cur : UInt64) (size : Nat)
  | erase (key : String) (rest : List String)
  | showUsers (rest : List String) (p : Nat)
deriving DecidableEq, Repr

-- A call ends with functions of the connection table, and is over when none is left.
inductive PlayPoint where
  | check (cur : UInt64) (pc : CheckPoint)
  | hls (pc : HlsPoint)
  | join (socketid : Int) (cmsid devid : String) (pc : JoinPoint)
  | quit (socketid : Int) (cmsid devid : String) (pc : QuitPoint)
  | disconnect (socketID : Int) (pc : DisconnectPoint)
  | sweep (pc : SweepPoint)
  | calls (rest : List ServerCall)
deriving DecidableEq, Repr

def CheckPoint.outer : CheckPoint → List PlayLock
  | .enter => []
  | .loop _ | .timeout .. | .clear .. => [.server]
  | .quit .. => [.rooms, .server]

def CheckPoint.takes : CheckPoint → Option PlayLock
  | .enter => some .server
  | .timeout .. => some .rooms
  | .quit _ _ _ p => some (.room p)
  | .loop _ | .clear .. => none

def HlsPoint.outer : HlsPoint → List PlayLock
  | .loop p _ _ | .send p _ _ _ => [.room p]
  | _ => []

def HlsPoint.takes : HlsPoint → Option PlayLock
  | .search _ => some .rooms
  | .size p | .users p _ => some (.room p)
  | .send .. => some .server
  | .ready _ | .loop .. => none

def JoinPoint.takes : JoinPoint → Option PlayLock
  | .lookup _ | .store .. => some .rooms
  | .create p _ | .found p => some (.room p)
  | .check | .start | .joined .. => none

def QuitPoint.takes : QuitPoint → Option PlayLock
  | .check => none
  | .lookup _ => some .rooms
  | .found p => some (.room p)

def DisconnectPoint.outer : DisconnectPoint → List PlayLock
  | .quit _ => [.rooms]
  | _ => []

def DisconnectPoint.takes : DisconnectPoint → Option PlayLock
  | .roomid => some .server
  | .rooms _ => some .rooms
  | .quit p => some (.room p)

def SweepPoint.outer : SweepPoint → List PlayLock
  | .enter => []
  | _ => [.rooms]

def SweepPoint.takes : SweepPoint → Option PlayLock
  | .enter => some .rooms
  | .size _ _ p _ | .showUsers _ p => some (.room p)
  | .loop _ | .reap .. | .erase .. => none

namespace PlayPoint

def outer : PlayPoint → List PlayLock
  | .check _ pc => pc.outer
  | .hls pc => pc.outer
  | .disconnect _ pc => pc.outer
  | .sweep pc => pc.outer
  | .join .. | .quit .. | .calls _ => []

def takes : PlayPoint → Option PlayLock
  | .check _ pc => pc.takes
  | .hls pc => pc.takes
  | .join _ _ _ pc => pc.takes
  | .quit _ _ _ pc => pc.takes
  | .disconnect _ pc => pc.takes
  | .sweep pc => pc.takes
  | .calls [] => none
  | .calls (_ :: _) => some .server

end PlayPoint

-- The test of `CheckConnectionState` for a viewer whose time is over.
def Connection.overdue (c : Connection) (cur : UInt64) : Bool :=
  cur - c.timestamp > 30 * 1000 && c.value "roomid" ≠ ""

namespace Play

-- The iterator stays on an entry that timed out.
def checkConnectionState (m : Play) (cur : UInt64) (env : PlayEnv) :
    CheckPoint → Option (Play × PlayPoint)
  | .enter => some (m, .check cur (.loop m.connections.keys))
  | .loop [] => some (m, .calls [])
  | .loop (key :: rest) =>
      match m.connections[key]? with
      | none => some (m, .check cur (.loop rest))
      | some none => none
      | some (some c) =>
          if c.overdue cur then
            some (m, .check cur (.timeout key rest c.socketid (c.value "roomid")))
          else some (m, .check cur (.loop rest))
  | .timeout key rest socketid roomid =>
      match m.rooms[roomid]? with
      | none => some (m, .check cur (.clear key rest))
      | some p => some (m, .check cur (.quit key rest socketid p))
  | .quit key rest socketid p => (m.room p).map fun room =>
      (m.write p (room.quit socketid env.tick), .check cur (.clear key rest))
  | .clear key rest => (m.connections.setValue key "roomid" "").map fun connections =>
      ({ m with connections }, .check cur (.loop (key :: rest)))

-- The first room of `rooms_` with the token.
def search (m : Play) (token : String) : Option Nat :=
  (m.rooms.toList.find? fun entry => (m.room entry.2).any (·.token = token)).map (·.2)

def notifyHls (m : Play) : HlsPoint → Option (Play × PlayPoint)
  | .search token =>
      match m.search token with
      | none => some (m, .calls [])
      | some p => some (m, .hls (.ready p))
  | .ready p => (m.room p).map fun room => (m.write p { room with rdy := true }, .hls (.size p))
  | .size p => (m.room p).map fun room => (m, .hls (.users p room.size))
  | .users p isize => (m.room p).map fun room =>
      (m, .hls (.loop p (joinReply true room.token isize) 0))
  | .loop p resp i => (m.room p).map fun room =>
      match room.users[i]? with
      | none => (m, .calls [])
      | some user => (m, .hls (.send p resp i user))
  | .send p resp i user => (m.connections.send user resp).map fun connections =>
      ({ m with connections }, .hls (.loop p resp (i + 1)))

-- The end of a successful join: the answer, the room id and the timestamp.
def accepted (socketid : Int) (roomid : String) (resp : Reply) : List ServerCall :=
  [.send socketid resp, .setValue socketid "roomid" roomid, .updateTimestamp socketid]

def joinLiveroom (m : Play) (socketid : Int) (cmsid devid : String) (env : PlayEnv) :
    JoinPoint → Option (Play × PlayPoint)
  | .check => some (m, .join socketid cmsid devid (.lookup env.ret))
  | .lookup ret =>
      if ret = 100 ∨ ret = 101 then
        some (m.delete (cmsid ++ devid), .calls [.send socketid offlineReply])
      else if ret = 102 then some (m.delete (cmsid ++ devid), .join socketid cmsid devid .start)
      else if ret = 200 then
        match m.rooms[cmsid ++ devid]? with
        | some p => some (m, .join socketid cmsid devid (.found p))
        | none => some (m, .calls [.send socketid unexpectedReply])
      else some (m, .calls [.send socketid unexpectedReply])
  | .start =>
      match env.start with
      | .error result => some (m, .calls [.send socketid (failReply result)])
      | .ok token =>
          some ({ m with heap := m.heap ++ [some { cmsid, devid, token }] },
            .join socketid cmsid devid (.create m.heap.length token))
  | .create p token => (m.room p).map fun room =>
      (m.write p (room.join socketid),
        .join socketid cmsid devid (.store p token (room.join socketid).size))
  | .store p token count =>
      some ({ m with rooms := m.rooms.insert (cmsid ++ devid) p },
        .calls (accepted socketid (cmsid ++ devid) (joinReply false token count)))
  | .found p => (m.room p).map fun room =>
      (m.write p (room.join socketid),
        .join socketid cmsid devid (.joined p (room.join socketid).size))
  | .joined p count => (m.room p).map fun room =>
      (m, .calls (accepted socketid (cmsid ++ devid) (joinReply room.rdy room.token count)))

def quitLiveroom (m : Play) (socketid : Int) (cmsid devid : String) (env : PlayEnv) :
    QuitPoint → Option (Play × PlayPoint)
  | .check => some (m, .quit socketid cmsid devid (.lookup env.ret))
  | .lookup ret =>
      if ret = 200 then
        match m.rooms[cmsid ++ devid]? with
        | some p => some (m, .quit socketid cmsid devid (.found p))
        | none => some (m, .calls [.send socketid stopReply])
      else some (m.delete (cmsid ++ devid), .calls [.send socketid stopReply])
  | .found p => (m.room p).map fun room =>
      (m.write p (room.quit socketid env.tick),
        .calls [.setValue socketid "roomid" "", .send socketid stopReply])

-- `onDisconnectWrapper`: `onDisconnect`, then `_removeConnection`.
def onDisconnect (m : Play) (socketID : Int) (env : PlayEnv) :
    DisconnectPoint → Option (Play × PlayPoint)
  | .roomid => (m.connections.getValue socketID "roomid").map fun roomid =>
      if roomid = "" then (m, .calls [.removeConnection socketID])
      else (m, .disconnect socketID (.rooms roomid))
  | .rooms roomid =>
      match m.rooms[roomid]? with
      | none => some (m, .calls [.removeConnection socketID])
      | some p => some (m, .disconnect socketID (.quit p))
  | .quit p => (m.room p).map fun room =>
      (m.write p (room.quit socketID env.tick), .calls [.removeConnection socketID])

-- The room sweep of `state_threadfunc`, with `stop_play` behind `handler_`.
def sweep (m : Play) (env : PlayEnv) : SweepPoint → Option (Play × PlayPoint)
  | .enter => some (m, .sweep (.loop m.rooms.keys))
  | .loop [] => some (m, .calls [])
  | .loop (key :: rest) =>
      match m.rooms[key]? with
      | none => some (m, .sweep (.loop rest))
      | some p => (m.room p).map fun _ => (m, .sweep (.size key rest p env.tick))
  | .size key rest p cur => (m.room p).map fun room => (m, .sweep (.reap key rest p cur room.size))
  | .reap key rest p cur size => (m.room p).map fun room =>
      if size = 0 ∧ cur - room.timestamp > 60 * 1000 then (m, .sweep (.erase key rest))
      else (m, .sweep (.showUsers rest p))
  | .erase key rest => (m.rooms[key]?.bind m.room).map fun _ => (m.delete key, .sweep (.loop rest))
  | .showUsers rest p => (m.room p).map fun _ => (m, .sweep (.loop rest))

def call (m : Play) (env : PlayEnv) : List ServerCall → Option (Play × PlayPoint)
  | [] => none
  | first :: rest => (first.exec m.connections env.tick).map fun result =>
      ({ m with connections := result.1 }, .calls (result.2 ++ rest))

-- The step that leaves a point.
def exec (m : Play) (point : PlayPoint) (env : PlayEnv) : Option (Play × PlayPoint) :=
  match point with
  | .check cur pc => m.checkConnectionState cur env pc
  | .hls pc => m.notifyHls pc
  | .join socketid cmsid devid pc => m.joinLiveroom socketid cmsid devid env pc
  | .quit socketid cmsid devid pc => m.quitLiveroom socketid cmsid devid env pc
  | .disconnect socketID pc => m.onDisconnect socketID env pc
  | .sweep pc => m.sweep env pc
  | .calls rest => m.call env rest

def program : LockProgram Play PlayPoint PlayLock PlayEnv where
  outer := PlayPoint.outer
  takes := PlayPoint.takes
  exec := Play.exec

end Play

inductive PlayCall where
  | checkConnectionState (cur : UInt64)
  | notifyHls (token : String)
  | joinLiveroom (socketid : Int) (cmsid devid : String)
  | quitLiveroom (socketid : Int) (cmsid devid : String)
  | onDisconnect (socketID : Int)
  | sweep
  | onConnect (socketID : Int)
  | heartbeat (socketid : Int)
  | removeConnection (socketID : Int)
deriving DecidableEq, Repr

def PlayCall.start : PlayCall → PlayPoint
  | .checkConnectionState cur => .check cur .enter
  | .notifyHls token => .hls (.search token)
  | .joinLiveroom socketid cmsid devid => .join socketid cmsid devid .check
  | .quitLiveroom socketid cmsid devid => .quit socketid cmsid devid .check
  | .onDisconnect socketID => .disconnect socketID .roomid
  | .sweep => .sweep .enter
  | .onConnect socketID =>
      .calls [.connect socketID, .setValue socketID "handle" ("User #" ++ toString socketID),
        .updateTimestamp socketID]
  | .heartbeat socketid => .calls [.updateTimestamp socketid, .heartbeat socketid]
  | .removeConnection socketID => .calls [.removeConnection socketID]

-- The play manager with any number of calls in progress.
structure Playing where
  play : Play := {}
  threads : List (Standing PlayPoint) := []

inductive PlayEvent where
  | call (call : PlayCall)
  | advance (thread : Nat) (env : PlayEnv)

def playStep (m : Playing) : PlayEvent → Option (Playing × Unit)
  | .call call => some ({ m with threads := m.threads ++ [⟨call.start, false⟩] }, ())
  | .advance i env => (Play.program.step m.play m.threads i env).map fun result =>
      (⟨result.1, result.2⟩, ())

end VideoAdapter.Wss

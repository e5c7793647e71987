import VideoAdapter.Wss.Join

namespace VideoAdapter.Wss

open Adapter
open Service (RequestEnv SweepEnv)

-- Where a call of `quit_liveroom` stands.
inductive QuitPc where
  | check
  | lookup (ret : Int)
  | found (pRoom : Nat)
  | clear
  | reply
  | done
deriving DecidableEq, Repr

-- Where a call of `NotifyHls` stands. It ends with the room that its search has found.
inductive HlsPc where
  | search
  | ready (p : Nat)
  | size (p : Nat)
  | broadcast (p isize : Nat)
  | done (p : Option Nat)
deriving DecidableEq, Repr

inductive Call where
  | join (socketid : Int) (cmsid devid : String) (pc : Pc)
  | quit (socketid : Int) (cmsid devid : String) (pc : QuitPc)
  | hls (token : String) (pc : HlsPc)
deriving DecidableEq, Repr

def Call.finished : Call → Bool
  | .join _ _ _ (.done _) => true
  | .quit _ _ _ .done => true
  | .hls _ (.done _) => true
  | _ => false

-- The state thread. It holds `roomlock_` from the first room to the last; it looks at a room
-- and, in a second step, stops and deletes it.
inductive Sweeper where
  | idle
  | visit (keys : List String)
  | reap (key : String) (rest : List String)
deriving DecidableEq, Repr

-- The play manager with any number of calls in progress, on the threads of the pool and of
-- the HTTP server, beside the state thread.
structure Mngr where
  connections : Connections
  server : TcpServer
  rooms : Std.ExtTreeMap String Nat
  heap : List (Option LiveRoom)
  calls : List Call
  sweeper : Sweeper

inductive CallEvent where
  | join (socketid : Int) (cmsid devid : String)
  | quit (socketid : Int) (cmsid devid : String)
  | notifyHls (token : String)
  | advance (call : Nat) (env : RequestEnv)
  | sweep (env : SweepEnv)
  | leave (socketid : Int) (roomid : String) (tick : UInt64)
  | established (socketID : Int) (tick : UInt64)
  | removeConnection (socketID : Int)
  | adapter (event : AdapterEvent)

-- The regions under `roomlock_` that a call passes.
inductive Region where
  | lookup (key : String)
  | store (key : String) (p : Nat)
  | search (token : String)
deriving DecidableEq, Repr

-- What a step shows: the region it was, if it was one, and what it did to the outside.
structure Shown where
  region : Option Region := none
  out : List Output := []

abbrev CallHistory := List (CallEvent × Shown)

def Pc.region (key : String) : Pc → Option Region
  | .lookup _ => some (.lookup key)
  | .store p _ => some (.store key p)
  | _ => none

-- Whether `roomlock_` is held.
def Sweeper.holds : Sweeper → Bool
  | .idle => false
  | _ => true

namespace Mngr

-- What the calls share, for the steps of a single call.
def shared (m : Mngr) : Joins where
  connections := m.connections
  server := m.server
  rooms := m.rooms
  heap := m.heap
  calls := ∅

def withShared (m : Mngr) (j : Joins) : Mngr :=
  { m with connections := j.connections, server := j.server, rooms := j.rooms, heap := j.heap }

def goto (m : Mngr) (i : Nat) (call : Call) : Mngr := { m with calls := m.calls.set i call }

-- No room for a pointer to a deleted one.
def room (m : Mngr) (p : Nat) : Option LiveRoom := m.heap[p]?.join

def write (m : Mngr) (p : Nat) (room : LiveRoom) : Mngr :=
  { m with heap := m.heap.set p (some room) }

-- A step that needs `roomlock_` waits while the state thread holds it: it has no result then.
def advanceJoin (m : Mngr) (i : Nat) (socketid : Int) (cmsid devid : String) (pc : Pc)
    (env : RequestEnv) : Option (Mngr × Shown) :=
  let region := pc.region (cmsid ++ devid)
  if m.sweeper.holds ∧ region.isSome then none
  else (joinStep cmsid devid (m.shared.goto socketid pc) (socketid, env)).map fun r =>
    ((m.withShared r.1).goto i (.join socketid cmsid devid ((r.1.call socketid).getD pc)),
      { region, out := r.2 })

def advanceQuit (m : Mngr) (i : Nat) (socketid : Int) (cmsid devid : String) (pc : QuitPc)
    (env : RequestEnv) : Option (Mngr × Shown) :=
  let next := Call.quit socketid cmsid devid
  match pc with
  | .check =>
      (AdapterServer.checkStatus m.server cmsid devid).map fun ret => (m.goto i (next (.lookup ret)), {})
  | .lookup ret =>
      let region := some (.lookup (cmsid ++ devid))
      if m.sweeper.holds then none
      else if ret = 200 then
        match m.rooms[cmsid ++ devid]? with
        | some p => some (m.goto i (next (.found p)), { region })
        | none => some (m.goto i (next .reply), { region })
      else some ((m.withShared (m.shared.delete (cmsid ++ devid))).goto i (next .reply), { region })
  | .found p => (m.room p).map fun room =>
      ((m.write p (room.quit socketid env.tick)).goto i (next .clear), {})
  | .clear => (m.connections.setValue socketid "roomid" "").map fun connections =>
      (goto { m with connections } i (next .reply), {})
  | .reply => (m.shared.send socketid stopReply).map fun r =>
      ((m.withShared r.1).goto i (next .done), { out := r.2 })
  | .done => none

-- The first room of `rooms_` with the token.
def search (m : Mngr) (token : String) : Option Nat :=
  (m.rooms.toList.find? fun entry => (m.room entry.2).any (·.token = token)).map (·.2)

end Mngr

def Joins.broadcast (data : Reply) : List Int → Joins → Option (Joins × List Output)
  | [], j => some (j, [])
  | user :: rest, j => (j.send user data).bind fun sent =>
      (broadcast data rest sent.1).map fun more => (more.1, sent.2 ++ more.2)

namespace Mngr

def advanceHls (m : Mngr) (i : Nat) (token : String) : HlsPc → Option (Mngr × Shown)
  | .search =>
      let region := some (.search token)
      if m.sweeper.holds then none
      else match m.search token with
        | some p => some (m.goto i (.hls token (.ready p)), { region })
        | none => some (m.goto i (.hls token (.done none)), { region })
  | .ready p => (m.room p).map fun room =>
      ((m.write p { room with rdy := true }).goto i (.hls token (.size p)), {})
  | .size p => (m.room p).map fun room => (m.goto i (.hls token (.broadcast p room.size)), {})
  | .broadcast p isize => (m.room p).bind fun room =>
      (m.shared.broadcast (joinReply true room.token isize) room.users).map fun r =>
        ((m.withShared r.1).goto i (.hls token (.done (some p))), { out := r.2 })
  | .done _ => none

def advance (m : Mngr) (i : Nat) (env : RequestEnv) : Option (Mngr × Shown) :=
  match m.calls[i]? with
  | none => none
  | some (.join socketid cmsid devid pc) => m.advanceJoin i socketid cmsid devid pc env
  | some (.quit socketid cmsid devid pc) => m.advanceQuit i socketid cmsid devid pc env
  | some (.hls token pc) => m.advanceHls i token pc

-- The room sweep of `state_threadfunc`, one step at a time.
def sweep (m : Mngr) (env : SweepEnv) : Option (Mngr × Shown) :=
  match m.sweeper with
  | .idle => some ({ m with sweeper := .visit m.rooms.keys }, {})
  | .visit [] => some ({ m with sweeper := .idle }, {})
  | .visit (key :: rest) => (m.rooms[key]?.bind m.room).map fun p =>
      if p.size = 0 ∧ env.tick - p.timestamp > 60 * 1000 then ({ m with sweeper := .reap key rest }, {})
      else ({ m with sweeper := .visit rest }, {})
  | .reap key rest => (m.rooms[key]?.bind m.room).map fun p =>
      let stop := AdapterServer.notifyStopPush m.server p.cmsid p.devid env.stop
      let m := m.withShared (m.shared.delete key)
      ({ m with server := stop.2.1, sweeper := .visit rest },
        { out := .stopPlay p.cmsid p.devid :: stop.2.2.map .sent })

-- The common body of `onTimeout` and `onDisconnect`.
def leave (m : Mngr) (socketid : Int) (roomid : String) (tick : UInt64) : Option (Mngr × Shown) :=
  if m.sweeper.holds then none
  else if roomid = "" then some (m, {})
  else match m.rooms[roomid]? with
    | none => some (m, {})
    | some p => (m.room p).map fun room => (m.write p (room.quit socketid tick), {})

end Mngr

def callStep (m : Mngr) : CallEvent → Option (Mngr × Shown)
  | .join socketid cmsid devid =>
      some ({ m with calls := m.calls ++ [.join socketid cmsid devid .check] }, {})
  | .quit socketid cmsid devid =>
      some ({ m with calls := m.calls ++ [.quit socketid cmsid devid .check] }, {})
  | .notifyHls token => some ({ m with calls := m.calls ++ [.hls token .search] }, {})
  | .advance i env => m.advance i env
  | .sweep env => m.sweep env
  | .leave socketid roomid tick => m.leave socketid roomid tick
  | .established socketID tick =>
      (Service.onConnectWrapper ⟨m.connections, ∅, m.server⟩ socketID tick).map fun w =>
        ({ m with connections := w.connections }, {})
  | .removeConnection socketID =>
      some ({ m with connections := m.connections.removeConnection socketID }, {})
  | .adapter event =>
      (adapterStep m.server event).map fun r => ({ m with server := r.1 }, { out := r.2.map .sent })

end VideoAdapter.Wss

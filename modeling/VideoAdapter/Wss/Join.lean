import VideoAdapter.Lib.Run
import VideoAdapter.Wss.PlayMngr

namespace VideoAdapter.Wss

open Adapter
open Service (RequestEnv)

-- Where a call of `join_liveroom` stands. Between two of these points it does one thing
-- that other calls see: a status check, a region under `roomlock_`, `start_play`, a
-- `LiveRoom::join`, or its answer.
inductive Pc where
  | check
  | lookup (ret : Int)
  | start
  | create (token : String)
  | store (p : Nat) (resp : Reply)
  | found (pRoom : Nat)
  | joined (pRoom : Nat) (count : Nat)
  | reply (resp : Reply)
  | accept (resp : Reply)
  | done (code : Int)
deriving DecidableEq, Repr

-- The calls in progress, by socket. Rooms are reached through pointers, so a call can hold
-- a room that is no longer stored or, with `none` in the heap, is deleted.
structure Joins where
  connections : Connections
  server : TcpServer
  rooms : Std.ExtTreeMap String Nat
  heap : List (Option LiveRoom)
  calls : Std.ExtTreeMap Int Pc

namespace Joins

def call (m : Joins) (socketid : Int) : Option Pc := m.calls[socketid]?

def goto (m : Joins) (socketid : Int) (pc : Pc) : Joins :=
  { m with calls := m.calls.insert socketid pc }

-- `delete pRoom; rooms_.erase(iter)`
def delete (m : Joins) (key : String) : Joins :=
  match m.rooms[key]? with
  | none => m
  | some p => { m with rooms := m.rooms.erase key, heap := m.heap.set p none }

def lookup (m : Joins) (socketid : Int) (key : String) (ret : Int) : Joins :=
  if ret = 100 ∨ ret = 101 then (m.delete key).goto socketid (.reply offlineReply)
  else if ret = 102 then (m.delete key).goto socketid .start
  else if ret = 200 then
    match m.rooms[key]? with
    | some p => m.goto socketid (.found p)
    | none => m.goto socketid (.reply unexpectedReply)
  else m.goto socketid (.reply unexpectedReply)

def startPlay (m : Joins) (socketid : Int) (cmsid devid : String) (env : RequestEnv) :
    Joins × List Output :=
  let start := AdapterServer.notifyStartPush m.server cmsid devid env.start
  let pc := if start.1.ret ≠ 0 then .reply (failReply start.1.result) else .create start.1.token
  (goto { m with server := start.2.1 } socketid pc, start.2.2.map .sent)

-- The new room is not stored yet.
def create (m : Joins) (socketid : Int) (cmsid devid token : String) : Joins :=
  let p := LiveRoom.join { cmsid, devid, token } socketid
  goto { m with heap := m.heap ++ [some p] } socketid
    (.store m.heap.length (joinReply false token p.size))

-- No result for a pointer to a deleted room.
def joinRoom (m : Joins) (socketid : Int) (pRoom : Nat) : Option Joins :=
  match m.heap[pRoom]? with
  | some (some room) =>
      some (goto { m with heap := m.heap.set pRoom (some (room.join socketid)) } socketid
        (.joined pRoom (room.join socketid).size))
  | _ => none

def readRoom (m : Joins) (socketid : Int) (pRoom count : Nat) : Option Joins :=
  match m.heap[pRoom]? with
  | some (some room) => some (m.goto socketid (.accept (joinReply room.rdy room.token count)))
  | _ => none

def send (m : Joins) (socketid : Int) (data : Reply) : Option (Joins × List Output) :=
  (m.connections.send socketid data).map fun connections =>
    ({ m with connections }, if m.connections.registered socketid then [.reply socketid data] else [])

def accept (m : Joins) (socketid : Int) (roomid : String) (resp : Reply) (tick : UInt64) :
    Option (Joins × List Output) := do
  let (m, out) ← m.send socketid resp
  let connections ← m.connections.setValue socketid "roomid" roomid
  let connections ← connections.updateTimestamp socketid tick
  return ({ m with connections }, out)

end Joins

-- One step of the call of a socket for the camera.
def joinStep (cmsid devid : String) (m : Joins) : Int × RequestEnv → Option (Joins × List Output)
  | (socketid, env) =>
      match m.call socketid with
      | none => none
      | some .check =>
          (AdapterServer.checkStatus m.server cmsid devid).map fun ret =>
            (m.goto socketid (.lookup ret), [])
      | some (.lookup ret) => some (m.lookup socketid (cmsid ++ devid) ret, [])
      | some .start => some (m.startPlay socketid cmsid devid env)
      | some (.create token) => some (m.create socketid cmsid devid token, [])
      | some (.store p resp) =>
          some (Joins.goto { m with rooms := m.rooms.insert (cmsid ++ devid) p } socketid
            (.accept resp), [])
      | some (.found pRoom) => (m.joinRoom socketid pRoom).map (·, [])
      | some (.joined pRoom count) => (m.readRoom socketid pRoom count).map (·, [])
      | some (.reply resp) =>
          (m.send socketid resp).map fun (m, out) => (m.goto socketid (.done resp.code), out)
      | some (.accept resp) =>
          (m.accept socketid (cmsid ++ devid) resp env.tick).map fun (m, out) =>
            (m.goto socketid (.done resp.code), out)
      | some (.done _) => none

-- All calls are still to begin, and the stored room, if any, exists.
structure Joins.Ready (m : Joins) (key : String) : Prop where
  idle : ∀ s pc, m.call s = some pc → pc = .check
  live : ∀ p, m.rooms[key]? = some p → ∃ room : LiveRoom, m.heap[p]? = some (some room)

end VideoAdapter.Wss

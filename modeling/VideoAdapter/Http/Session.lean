import Mathlib.Data.List.Basic

namespace VideoAdapter.Http

inductive ReadRet where
  | readOver
  | readContinue
  | readClose
deriving DecidableEq, Repr

inductive WriteRet where
  | writeConnAlive
  | writeConnClose
  | writeConnContinue
deriving DecidableEq, Repr

-- The functions that `EpollSocket` calls for a connection: `State` is what the watcher keeps for it,
-- and `Input` is what the socket and the rest of the world come to during one call.
structure EpollSocketWatcher (State Input : Type*) where
  onAccept : Nat → State
  onReadable : State → Input → State × ReadRet
  onWriteable : State → Input → State × WriteRet

-- A call of the watcher as it was made and returned.
inductive Call (Input : Type*) where
  | onAccept (fd : Nat)
  | onReadable (input : Input) (ret : ReadRet)
  | onWriteable (input : Input) (ret : WriteRet)
  | onClose
deriving DecidableEq, Repr

-- What may come next on a connection.
inductive Phase where
  | reading
  | writing
  | closing
deriving DecidableEq, Repr

def ReadRet.phase : ReadRet → Phase
  | .readOver => .writing
  | .readContinue => .reading
  | .readClose => .closing

def WriteRet.phase : WriteRet → Phase
  | .writeConnAlive => .reading
  | .writeConnClose => .closing
  | .writeConnContinue => .writing

-- One connection on its own, served by one caller from its accept to its close.
inductive Session (State : Type*) where
  | absent
  | live (phase : Phase) (state : State)
  | closed
deriving DecidableEq, Repr

namespace Session

variable {State Input : Type*}

-- A call out of turn, or one that did not return what the watcher returns there, has no result.
def next (watcher : EpollSocketWatcher State Input) :
    Session State → Call Input → Option (Session State)
  | .absent, .onAccept fd => some (.live .reading (watcher.onAccept fd))
  | .live .reading state, .onReadable input ret =>
      if (watcher.onReadable state input).2 = ret then
        some (.live ret.phase (watcher.onReadable state input).1)
      else none
  | .live .writing state, .onWriteable input ret =>
      if (watcher.onWriteable state input).2 = ret then
        some (.live ret.phase (watcher.onWriteable state input).1)
      else none
  | .live .reading _, .onClose => some .closed
  | .live .closing _, .onClose => some .closed
  | _, _ => none

def follow (watcher : EpollSocketWatcher State Input) (calls : List (Call Input)) :
    Option (Session State) :=
  calls.foldlM (next watcher) .absent

theorem follow_concat (watcher : EpollSocketWatcher State Input) {calls : List (Call Input)}
    {session : Session State} (h : follow watcher calls = some session) (call : Call Input) :
    follow watcher (calls ++ [call]) = next watcher session call := by
  rw [follow, List.foldlM_append]
  rw [follow] at h
  rw [h]
  simp

end Session

end VideoAdapter.Http

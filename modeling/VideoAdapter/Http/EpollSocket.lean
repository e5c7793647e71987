import Mathlib.Logic.Function.Basic
import VideoAdapter.Http.Session
import VideoAdapter.Lib.TaskQueue

namespace VideoAdapter.Http

open Lib

-- `S_RUN`, `S_REJECT_CONN` and `S_STOP`.
inductive EpollSocketStatus where
  | run
  | rejectConn
  | stop
deriving DecidableEq, Repr

-- What a connection is armed for, with `EPOLLONESHOT` in both cases.
inductive Mask where
  | epollin
  | epollout
deriving DecidableEq, Repr

-- The events of a connection as `handle_event` tells them apart: `EPOLLIN` is tested first, then
-- `EPOLLOUT`, and there may be neither.
inductive Events where
  | readable
  | writeable
  | other
deriving DecidableEq, Repr

def Mask.yields : Mask → Events → Bool
  | .epollin, .readable => true
  | .epollout, .writeable => true
  | _, .other => true
  | _, _ => false

structure EpollContext (State : Type*) where
  fd : Nat
  ptr : State
deriving DecidableEq, Repr

-- What the kernel keeps for a descriptor of the epoll set: the address given to it, and what it is
-- armed for until the one shot is fired.
structure Registration where
  ptr : Nat
  armed : Option Mask
deriving DecidableEq, Repr

-- An entry of the array that `epoll_wait` fills.
inductive Ready where
  | listener
  | conn (ptr : Nat) (events : Events)
deriving DecidableEq, Repr

-- Where a thread stands in `close_and_release`.
inductive ClosePc where
  | releasing (ptr : Nat)
  | closing (fd : Nat)
  | leaving
deriving DecidableEq, Repr

-- Where a thread of the pool stands in `handle_readable_event`.
inductive ReadPc where
  | reading (ptr : Nat)
  | rearming (ptr fd : Nat) (mask : Mask)
  | closing (pc : ClosePc)
deriving DecidableEq, Repr

-- Where the thread of `start_event_loop` stands.
inductive LoopPc where
  | looping
  | polling
  | handling
  | counting (fd : Nat)
  | opening (fd : Nat)
  | adding (ptr fd : Nat)
  | writing (ptr : Nat)
  | rearming (ptr fd : Nat) (mask : Mask)
  | closing (pc : ClosePc)
  | stopped
deriving DecidableEq, Repr

-- What the world answers during one step.
structure Env (Input : Type*) where
  accepted : Option Nat := none
  addOk : Bool := true
  taskOk : Bool := true
  input : Input

-- The contexts stand at their addresses, `none` where one was deleted. No address is used twice.
structure EpollSocket (State : Type*) where
  status : EpollSocketStatus := .run
  clients : Int := 0
  heap : List (Option (EpollContext State)) := []
  opened : Nat → Bool := fun _ => false
  epoll : Nat → Option Registration := fun _ => none
  threadPool : TaskQueue ReadPc := {}
  events : List Ready := []
  pc : LoopPc := .looping

inductive Action (Input : Type*) where
  -- `stop_epoll`, from whatever thread
  | stopEpoll
  -- the kernel enters one more event while `epoll_wait` is waiting
  | listen
  | deliver (fd : Nat) (events : Events)
  | loop (env : Env Input)
  | worker (j : Nat) (env : Env Input)

namespace EpollSocket

variable {State Input : Type*}

def arm (server : EpollSocket State) (fd : Nat) (registration : Option Registration) :
    EpollSocket State :=
  { server with epoll := Function.update server.epoll fd registration }

-- `epoll_ctl` with `EPOLL_CTL_MOD` fails for a descriptor that is not in the set.
def modify (server : EpollSocket State) (ptr fd : Nat) (mask : Mask) : EpollSocket State :=
  server.arm fd ((server.epoll fd).map fun _ => { ptr := ptr, armed := some mask })

-- The next step of `close_and_release`, with where it stands after it. A context that is gone has no
-- result.
def closeAndRelease (server : EpollSocket State) :
    ClosePc → Option (EpollSocket State × Option ClosePc × Option (Nat × Call Input))
  | .releasing ptr =>
      match server.heap[ptr]? with
      | some (some context) =>
          some ({ server.arm context.fd none with heap := server.heap.set ptr none },
            some (.closing context.fd), some (ptr, .onClose))
      | _ => none
  | .closing fd =>
      some ({ server with opened := Function.update server.opened fd false }, some .leaving, none)
  | .leaving =>
      some ({ server with
        clients := server.clients - 1
        status := if server.clients - 1 = 0 ∧ server.status = .rejectConn then .stop
          else server.status }, none, none)

variable (watcher : EpollSocketWatcher State Input)

-- The next step of `handle_readable_event`, and the step that takes the task from the queue.
def workerStep (server : EpollSocket State) (j : Nat) (env : Env Input) :
    Option ReadPc → Option (EpollSocket State × Option (Nat × Call Input))
  | none => (server.threadPool.take j).map fun pool => ({ server with threadPool := pool }, none)
  | some (.reading ptr) =>
      match server.heap[ptr]? with
      | some (some context) =>
          let ret := watcher.onReadable context.ptr env.input
          let next : ReadPc := match ret.2 with
            | .readClose => .closing (.releasing ptr)
            | .readContinue => .rearming ptr context.fd .epollin
            | .readOver => .rearming ptr context.fd .epollout
          some ({ server with
            heap := server.heap.set ptr (some { context with ptr := ret.1 })
            threadPool := server.threadPool.hold j (some next) },
            some (ptr, .onReadable env.input ret.2))
      | _ => none
  | some (.rearming ptr fd mask) =>
      some ({ server.modify ptr fd mask with threadPool := server.threadPool.hold j none }, none)
  | some (.closing pc) =>
      (server.closeAndRelease pc).map fun (after, next, call) =>
        ({ after with threadPool := after.threadPool.hold j (next.map .closing) }, call)

-- `handle_event` for the next entry of the array.
def handleEvent (server : EpollSocket State) (env : Env Input) : Ready → Option (EpollSocket State)
  | .listener =>
      if server.status = .run then
        match env.accepted with
        | none => some server
        | some fd =>
            if server.opened fd then none
            else some { server with
              opened := Function.update server.opened fd true, pc := .counting fd }
      else if server.clients = 0 ∧ server.status = .rejectConn then
        some { server with status := .stop }
      else some server
  | .conn ptr .readable =>
      if env.taskOk then
        some { server with threadPool := server.threadPool.push (.reading ptr) }
      else some { server with pc := .closing (.releasing ptr) }
  | .conn ptr .writeable => some { server with pc := .writing ptr }
  | .conn _ .other => some server

-- The next step of the event loop. When `EPOLL_CTL_ADD` fails, `close_and_release` is called with the
-- event of the listening socket, whose address field holds no context: there is no result.
def loopStep (server : EpollSocket State) (env : Env Input) :
    LoopPc → Option (EpollSocket State × Option (Nat × Call Input))
  | .looping =>
      some ({ server with pc := if server.status = .stop then .stopped else .polling }, none)
  | .polling => some ({ server with pc := .handling }, none)
  | .handling =>
      match server.events with
      | [] => some ({ server with pc := .looping }, none)
      | event :: rest =>
          (handleEvent { server with events := rest } env event).map fun after => (after, none)
  | .counting fd => some ({ server with clients := server.clients + 1, pc := .opening fd }, none)
  | .opening fd =>
      some ({ server with
        heap := server.heap ++ [some { fd := fd, ptr := watcher.onAccept fd }]
        pc := .adding server.heap.length fd }, some (server.heap.length, .onAccept fd))
  | .adding ptr fd =>
      if env.addOk then
        some ({ server.arm fd (some { ptr := ptr, armed := some .epollin }) with pc := .handling },
          none)
      else none
  | .writing ptr =>
      match server.heap[ptr]? with
      | some (some context) =>
          let ret := watcher.onWriteable context.ptr env.input
          let next : LoopPc := match ret.2 with
            | .writeConnClose => .closing (.releasing ptr)
            | .writeConnContinue => .rearming ptr context.fd .epollout
            | .writeConnAlive =>
                if server.status = .rejectConn then .closing (.releasing ptr)
                else .rearming ptr context.fd .epollin
          some ({ server with
            heap := server.heap.set ptr (some { context with ptr := ret.1 }), pc := next },
            some (ptr, .onWriteable env.input ret.2))
      | _ => none
  | .rearming ptr fd mask => some ({ server.modify ptr fd mask with pc := .handling }, none)
  | .closing pc =>
      (server.closeAndRelease pc).map fun (after, next, call) =>
        ({ after with pc := (next.map LoopPc.closing).getD .handling }, call)
  | .stopped => none

-- A step of the server, which has no result when that thread cannot go on or when it touches a
-- context that is gone.
def step (server : EpollSocket State) :
    Action Input → Option (EpollSocket State × Option (Nat × Call Input))
  | .stopEpoll => some ({ server with status := .rejectConn }, none)
  | .listen =>
      if server.pc = .polling then
        some ({ server with events := server.events ++ [.listener] }, none)
      else none
  | .deliver fd events =>
      match server.epoll fd with
      | some { ptr := ptr, armed := some mask } =>
          if server.pc = .polling ∧ mask.yields events = true then
            some ({ server.arm fd (some { ptr := ptr, armed := none }) with
              events := server.events ++ [.conn ptr events] }, none)
          else none
      | _ => none
  | .loop env => loopStep watcher server env server.pc
  | .worker j env => (server.threadPool.hands[j]?).bind fun hand => workerStep watcher server j env hand

-- A server with so many threads in its pool.
def started (threads : Nat) : EpollSocket State where
  threadPool := { hands := List.replicate threads none }

end EpollSocket

end VideoAdapter.Http

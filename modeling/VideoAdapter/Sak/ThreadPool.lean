import VideoAdapter.Lib.Run
import VideoAdapter.Lib.Threads

namespace VideoAdapter.Sak

open Lib

def STARTED : Int := 0

def STOPPED : Int := 1

-- Where a thread of the pool stands in `execute_thread`. Inside `pthread_cond_wait` it first is on
-- the list of the condition variable and then, woken, waits for the mutex.
inductive WorkerPc (Task : Type*) where
  | locking
  | checking
  | waiting
  | woken
  | taking
  | running (task : Task)
  | exited
deriving DecidableEq, Repr

-- Where a caller stands in `add_task`.
inductive AdderPc (Task : Type*) where
  | locking (task : Task)
  | testing (task : Task)
  | pushing (task : Task)
  | signalling
  | returned (ret : Int)
deriving DecidableEq, Repr

-- Where the owner of the pool stands in `start` and in `destroy_threadpool`.
inductive MainPc where
  | idle
  | creating
  | started
  | failed
  | locking
  | storing
  | broadcasting
  | joining (i : Nat)
  | rebroadcasting (i : Nat)
  | destroyed
deriving DecidableEq, Repr

-- What a step does to the tasks.
inductive Mark (Task : Type*) where
  | quiet
  | pushed (task : Task)
  | rejected (task : Task)
  | popped (task : Task)
  | finished (task : Task)
deriving DecidableEq, Repr

inductive Action (Task : Type*) where
  -- one more thread calls `add_task`
  | addTask (task : Task)
  -- its next step; a signal chooses which waiting thread it wakes
  | adder (i k : Nat)
  | worker (j : Nat)
  -- `pthread_cond_wait` returns without a signal
  | spurious (j : Nat)
  -- the owner's next step; `ok` is what `pthread_create` comes to
  | main (ok : Bool)
deriving DecidableEq, Repr

-- `threads` is `m_threads`, with where each thread stands; `locked` tells that some thread is inside
-- `m_task_mutex`.
structure ThreadPool (Task : Type*) where
  poolSize : Nat
  taskSizeLimit : Int := -1
  poolState : Int := -1
  tasks : List Task := []
  locked : Bool := false
  threads : List (WorkerPc Task) := []
  adders : List (AdderPc Task) := []
  main : MainPc := .idle
deriving DecidableEq, Repr

variable {Task : Type*}

namespace WorkerPc

def waits : WorkerPc Task → Bool
  | .waiting => true
  | _ => false

def takes : WorkerPc Task → Bool
  | .taking => true
  | _ => false

-- Inside the mutex.
def holds : WorkerPc Task → Bool
  | .checking => true
  | .taking => true
  | _ => false

-- On the way to the next look at the queue.
def comes : WorkerPc Task → Bool
  | .locking => true
  | .checking => true
  | .woken => true
  | .taking => true
  | _ => false

def hand : WorkerPc Task → Option Task
  | .running task => some task
  | _ => none

-- `pthread_cond_broadcast` takes every thread off the list.
def wake : WorkerPc Task → WorkerPc Task
  | .waiting => .woken
  | pc => pc

end WorkerPc

namespace AdderPc

def holds : AdderPc Task → Bool
  | .testing _ => true
  | .pushing _ => true
  | _ => false

def pushes : AdderPc Task → Bool
  | .pushing _ => true
  | _ => false

def signals : AdderPc Task → Bool
  | .signalling => true
  | _ => false

end AdderPc

def MainPc.holds : MainPc → Bool
  | .storing => true
  | _ => false

namespace ThreadPool

-- The next step of a thread of the pool. `front` of an empty queue has no result.
def executeThread (pool : ThreadPool Task) (j : Nat) :
    WorkerPc Task → Option (ThreadPool Task × Mark Task)
  | .locking =>
      if pool.locked then none
      else some ({ pool with locked := true, threads := pool.threads.set j .checking }, .quiet)
  | .woken =>
      if pool.locked then none
      else some ({ pool with locked := true, threads := pool.threads.set j .checking }, .quiet)
  | .checking =>
      if pool.poolState ≠ STOPPED ∧ pool.tasks = [] then
        some ({ pool with locked := false, threads := pool.threads.set j .waiting }, .quiet)
      else if pool.poolState = STOPPED then
        some ({ pool with locked := false, threads := pool.threads.set j .exited }, .quiet)
      else some ({ pool with threads := pool.threads.set j .taking }, .quiet)
  | .taking =>
      match pool.tasks with
      | [] => none
      | task :: rest =>
          some ({ pool with
            tasks := rest, locked := false, threads := pool.threads.set j (.running task) },
            .popped task)
  | .running task => some ({ pool with threads := pool.threads.set j .locking }, .finished task)
  | .waiting => none
  | .exited => none

-- The next step of a caller of `add_task`.
def addTask (pool : ThreadPool Task) (i k : Nat) :
    AdderPc Task → Option (ThreadPool Task × Mark Task)
  | .locking task =>
      if pool.locked then none
      else some ({ pool with locked := true, adders := pool.adders.set i (.testing task) }, .quiet)
  | .testing task =>
      if pool.taskSizeLimit > 0 ∧ (pool.tasks.length : Int) > pool.taskSizeLimit then
        some ({ pool with locked := false, adders := pool.adders.set i (.returned (-1)) },
          .rejected task)
      else some ({ pool with adders := pool.adders.set i (.pushing task) }, .quiet)
  | .pushing task =>
      some ({ pool with
        tasks := pool.tasks ++ [task], locked := false, adders := pool.adders.set i .signalling },
        .pushed task)
  | .signalling =>
      if pool.threads.any WorkerPc.waits then
        match pool.threads[k]? with
        | some .waiting =>
            some ({ pool with
              threads := pool.threads.set k .woken, adders := pool.adders.set i (.returned 0) },
              .quiet)
        | _ => none
      else some ({ pool with adders := pool.adders.set i (.returned 0) }, .quiet)
  | .returned _ => none

-- The next step of `start` and, after it, of `destroy_threadpool`. Joining a thread that was never
-- created has no result.
def ownerStep (pool : ThreadPool Task) (ok : Bool) : MainPc → Option (ThreadPool Task)
  | .idle =>
      if pool.poolSize = 0 then some { pool with main := .failed }
      else some { pool with poolState := STARTED, main := .creating }
  | .creating =>
      if pool.threads.length < pool.poolSize then
        if ok then some { pool with threads := pool.threads ++ [.locking], main := .creating }
        else some { pool with main := .failed }
      else some { pool with main := .started }
  | .started => some { pool with main := .locking }
  | .failed => some { pool with main := .locking }
  | .locking => if pool.locked then none else some { pool with locked := true, main := .storing }
  | .storing => some { pool with poolState := STOPPED, locked := false, main := .broadcasting }
  | .broadcasting =>
      some { pool with threads := pool.threads.map WorkerPc.wake, main := .joining 0 }
  | .joining i =>
      if i < pool.poolSize then
        match pool.threads[i]? with
        | some .exited => some { pool with main := .rebroadcasting i }
        | _ => none
      else some { pool with main := .destroyed }
  | .rebroadcasting i =>
      some { pool with threads := pool.threads.map WorkerPc.wake, main := .joining (i + 1) }
  | .destroyed => none

-- A step of one thread of the process, which has no result when that thread cannot go on now.
def step (pool : ThreadPool Task) : Action Task → Option (ThreadPool Task × Mark Task)
  | .addTask task => some ({ pool with adders := pool.adders ++ [.locking task] }, .quiet)
  | .adder i k => (pool.adders[i]?).bind fun pc => pool.addTask i k pc
  | .worker j => (pool.threads[j]?).bind fun pc => pool.executeThread j pc
  | .spurious j =>
      match pool.threads[j]? with
      | some .waiting => some ({ pool with threads := pool.threads.set j .woken }, .quiet)
      | _ => none
  | .main ok => (pool.ownerStep ok pool.main).map fun after => (after, .quiet)

end ThreadPool

end VideoAdapter.Sak

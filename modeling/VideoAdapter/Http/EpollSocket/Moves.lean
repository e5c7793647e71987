import VideoAdapter.Http.EpollSocket

namespace VideoAdapter.Http

variable {State Input : Type*}

-- Where a thread goes after its `on_readable`, by what that returned.
inductive ReadNext (ptr fd : Nat) : ReadRet → ReadPc → Prop
  | close : ReadNext ptr fd .readClose (.closing (.releasing ptr))
  | more : ReadNext ptr fd .readContinue (.rearming ptr fd .epollin)
  | done : ReadNext ptr fd .readOver (.rearming ptr fd .epollout)

-- The same for the event loop and `on_writeable`; a rejecting server closes a connection that would
-- have stayed alive.
inductive WriteNext (ptr fd : Nat) : WriteRet → LoopPc → Prop
  | close {ret : WriteRet} (hret : ret = .writeConnClose ∨ ret = .writeConnAlive) :
      WriteNext ptr fd ret (.closing (.releasing ptr))
  | more : WriteNext ptr fd .writeConnContinue (.rearming ptr fd .epollout)
  | alive : WriteNext ptr fd .writeConnAlive (.rearming ptr fd .epollin)

namespace EpollSocket

-- What a step of `close_and_release` does: the server after it, the next place and the call.
inductive CloseMove (server : EpollSocket State) :
    ClosePc → EpollSocket State → Option ClosePc → Option (Nat × Call Input) → Prop
  | release {ptr : Nat} {context : EpollContext State}
      (hcontext : server.heap[ptr]? = some (some context)) :
      CloseMove server (.releasing ptr)
        { server.arm context.fd none with heap := server.heap.set ptr none }
        (some (.closing context.fd)) (some (ptr, .onClose))
  | close {fd : Nat} :
      CloseMove server (.closing fd)
        { server with opened := Function.update server.opened fd false } (some .leaving) none
  | leave : CloseMove server .leaving { server with clients := server.clients - 1 } none none
  | last (hzero : server.clients - 1 = 0) :
      CloseMove server .leaving { server with clients := server.clients - 1, status := .stop }
        none none

-- What `handle_event` does for an entry of the array.
inductive EventMove (server : EpollSocket State) : Ready → EpollSocket State → Prop
  | ignore : EventMove server .listener server
  | accept {fd : Nat} (hrun : server.status = .run) (hclosed : server.opened fd = false) :
      EventMove server .listener { server with
        opened := Function.update server.opened fd true, pc := .counting fd }
  | stop (hzero : server.clients = 0) : EventMove server .listener { server with status := .stop }
  | queue {ptr : Nat} :
      EventMove server (.conn ptr .readable) { server with
        threadPool := server.threadPool.push (.reading ptr) }
  | refuse {ptr : Nat} :
      EventMove server (.conn ptr .readable) { server with pc := .closing (.releasing ptr) }
  | write {ptr : Nat} : EventMove server (.conn ptr .writeable) { server with pc := .writing ptr }
  | drop {ptr : Nat} : EventMove server (.conn ptr .other) server

variable (watcher : EpollSocketWatcher State Input)

-- What a thread of the pool can do with what it has in its hand.
inductive WorkerMove (server : EpollSocket State) (j : Nat) (env : Env Input) :
    Option ReadPc → EpollSocket State → Option (Nat × Call Input) → Prop
  | take {pool : Lib.TaskQueue ReadPc} (hpool : server.threadPool.take j = some pool) :
      WorkerMove server j env none { server with threadPool := pool } none
  | read {ptr : Nat} {context : EpollContext State} {next : ReadPc}
      (hcontext : server.heap[ptr]? = some (some context))
      (hnext : ReadNext ptr context.fd (watcher.onReadable context.ptr env.input).2 next) :
      WorkerMove server j env (some (.reading ptr))
        { server with
          heap := server.heap.set ptr
            (some { context with ptr := (watcher.onReadable context.ptr env.input).1 })
          threadPool := server.threadPool.hold j (some next) }
        (some (ptr, .onReadable env.input (watcher.onReadable context.ptr env.input).2))
  | rearm {ptr fd : Nat} {mask : Mask} :
      WorkerMove server j env (some (.rearming ptr fd mask))
        { server.modify ptr fd mask with threadPool := server.threadPool.hold j none } none
  | close {pc : ClosePc} {closed : EpollSocket State} {next : Option ClosePc}
      {call : Option (Nat × Call Input)} (move : server.CloseMove pc closed next call) :
      WorkerMove server j env (some (.closing pc))
        { closed with threadPool := server.threadPool.hold j (next.map .closing) } call

-- What the event loop can do at the place where it stands.
inductive LoopMove (server : EpollSocket State) (env : Env Input) :
    LoopPc → EpollSocket State → Option (Nat × Call Input) → Prop
  | stop (hstatus : server.status = .stop) :
      LoopMove server env .looping { server with pc := .stopped } none
  | poll : LoopMove server env .looping { server with pc := .polling } none
  | wake : LoopMove server env .polling { server with pc := .handling } none
  | back : LoopMove server env .handling { server with pc := .looping } none
  | handle {event : Ready} {rest : List Ready} {handled : EpollSocket State}
      (hevents : server.events = event :: rest)
      (move : EventMove { server with events := rest } event handled) :
      LoopMove server env .handling handled none
  | count {fd : Nat} :
      LoopMove server env (.counting fd)
        { server with clients := server.clients + 1, pc := .opening fd } none
  | create {fd : Nat} :
      LoopMove server env (.opening fd)
        { server with
          heap := server.heap ++ [some { fd := fd, ptr := watcher.onAccept fd }]
          pc := .adding server.heap.length fd }
        (some (server.heap.length, .onAccept fd))
  | add {ptr fd : Nat} :
      LoopMove server env (.adding ptr fd)
        { server.arm fd (some { ptr := ptr, armed := some .epollin }) with pc := .handling } none
  | write {ptr : Nat} {context : EpollContext State} {next : LoopPc}
      (hcontext : server.heap[ptr]? = some (some context))
      (hnext : WriteNext ptr context.fd (watcher.onWriteable context.ptr env.input).2 next) :
      LoopMove server env (.writing ptr)
        { server with
          heap := server.heap.set ptr
            (some { context with ptr := (watcher.onWriteable context.ptr env.input).1 })
          pc := next }
        (some (ptr, .onWriteable env.input (watcher.onWriteable context.ptr env.input).2))
  | rearm {ptr fd : Nat} {mask : Mask} :
      LoopMove server env (.rearming ptr fd mask)
        { server.modify ptr fd mask with pc := .handling } none
  | close {pc : ClosePc} {closed : EpollSocket State} {next : Option ClosePc}
      {call : Option (Nat × Call Input)} (move : server.CloseMove pc closed next call) :
      LoopMove server env (.closing pc)
        { closed with pc := (next.map LoopPc.closing).getD .handling } call

-- What the server, the kernel and the owner can do.
inductive Move (server : EpollSocket State) :
    Action Input → EpollSocket State → Option (Nat × Call Input) → Prop
  | stopEpoll : Move server .stopEpoll { server with status := .rejectConn } none
  | listen (hpc : server.pc = .polling) :
      Move server .listen { server with events := server.events ++ [.listener] } none
  | deliver {ptr fd : Nat} {events : Events} {mask : Mask}
      (harmed : server.epoll fd = some { ptr := ptr, armed := some mask })
      (hpc : server.pc = .polling) (hyields : mask.yields events = true) :
      Move server (.deliver fd events)
        { server.arm fd (some { ptr := ptr, armed := none }) with
          events := server.events ++ [.conn ptr events] } none
  | loop {env : Env Input} {after : EpollSocket State} {label : Option (Nat × Call Input)}
      (move : LoopMove watcher server env server.pc after label) :
      Move server (.loop env) after label
  | worker {j : Nat} {env : Env Input} {hand : Option ReadPc} {after : EpollSocket State}
      {label : Option (Nat × Call Input)} (hhand : server.threadPool.hands[j]? = some hand)
      (move : WorkerMove watcher server j env hand after label) :
      Move server (.worker j env) after label

variable {watcher} {server after : EpollSocket State} {label : Option (Nat × Call Input)}

theorem closeAndRelease_move {pc : ClosePc} {next : Option ClosePc}
    (hs : server.closeAndRelease pc = some (after, next, label)) :
    server.CloseMove pc after next label := by
  cases pc with
  | releasing ptr =>
      simp only [closeAndRelease] at hs
      split at hs
      · next context hcontext =>
          cases hs
          exact .release hcontext
      · cases hs
  | closing fd =>
      cases hs
      exact .close
  | leaving =>
      by_cases hlast : server.clients - 1 = 0 ∧ server.status = .rejectConn
      · rw [closeAndRelease, if_pos hlast] at hs
        cases hs
        exact .last hlast.1
      · rw [closeAndRelease, if_neg hlast] at hs
        cases hs
        exact .leave

theorem handleEvent_move {env : Env Input} {event : Ready}
    (hs : handleEvent server env event = some after) : server.EventMove event after := by
  cases event with
  | listener =>
      simp only [handleEvent] at hs
      split at hs
      · next hrun =>
          split at hs
          · cases hs
            exact .ignore
          · split at hs
            · cases hs
            · next hclosed =>
                cases hs
                exact .accept hrun (Bool.eq_false_iff.mpr hclosed)
      · split at hs
        · next hzero =>
            cases hs
            exact .stop hzero.1
        · cases hs
          exact .ignore
  | conn ptr events =>
      cases events with
      | readable =>
          simp only [handleEvent] at hs
          split at hs
          · cases hs
            exact .queue
          · cases hs
            exact .refuse
      | writeable =>
          cases hs
          exact .write
      | other =>
          cases hs
          exact .drop

theorem readNext (ptr fd : Nat) (ret : ReadRet) :
    ReadNext ptr fd ret (match ret with
      | .readClose => .closing (.releasing ptr)
      | .readContinue => .rearming ptr fd .epollin
      | .readOver => .rearming ptr fd .epollout) := by
  cases ret with
  | readOver => exact .done
  | readContinue => exact .more
  | readClose => exact .close

theorem writeNext (ptr fd : Nat) (status : EpollSocketStatus) (ret : WriteRet) :
    WriteNext ptr fd ret (match ret with
      | .writeConnClose => .closing (.releasing ptr)
      | .writeConnContinue => .rearming ptr fd .epollout
      | .writeConnAlive =>
          if status = .rejectConn then .closing (.releasing ptr)
          else .rearming ptr fd .epollin) := by
  cases ret with
  | writeConnAlive =>
      by_cases hstatus : status = .rejectConn
      · simp only [if_pos hstatus]
        exact .close (.inr rfl)
      · simp only [if_neg hstatus]
        exact .alive
  | writeConnClose => exact .close (.inl rfl)
  | writeConnContinue => exact .more

theorem workerStep_move {j : Nat} {env : Env Input} {hand : Option ReadPc}
    (hs : server.workerStep watcher j env hand = some (after, label)) :
    server.WorkerMove watcher j env hand after label := by
  cases hand with
  | none =>
      obtain ⟨pool, hpool, heq⟩ := Option.map_eq_some_iff.mp hs
      cases heq
      exact .take hpool
  | some task =>
      cases task with
      | reading ptr =>
          simp only [workerStep] at hs
          split at hs
          · next context hcontext =>
              cases hs
              exact .read hcontext (readNext ptr context.fd _)
          · cases hs
      | rearming ptr fd mask =>
          cases hs
          exact .rearm
      | closing pc =>
          obtain ⟨⟨closed, next, call⟩, hclosed, heq⟩ := Option.map_eq_some_iff.mp hs
          cases heq
          have hmove := closeAndRelease_move hclosed
          have hpool : closed.threadPool = server.threadPool := by cases hmove <;> rfl
          rw [hpool]
          exact .close hmove

theorem loopStep_move {env : Env Input} {pc : LoopPc}
    (hs : server.loopStep watcher env pc = some (after, label)) :
    server.LoopMove watcher env pc after label := by
  cases pc with
  | looping =>
      cases hs
      by_cases hstatus : server.status = .stop
      · simp only [if_pos hstatus]
        exact .stop hstatus
      · simp only [if_neg hstatus]
        exact .poll
  | polling =>
      cases hs
      exact .wake
  | handling =>
      simp only [loopStep] at hs
      split at hs
      · cases hs
        exact .back
      · next event rest hevents =>
          obtain ⟨handled, hhandled, heq⟩ := Option.map_eq_some_iff.mp hs
          cases heq
          exact .handle hevents (handleEvent_move hhandled)
  | counting fd =>
      cases hs
      exact .count
  | opening fd =>
      cases hs
      exact .create
  | adding ptr fd =>
      simp only [loopStep] at hs
      split at hs
      · cases hs
        exact .add
      · cases hs
  | writing ptr =>
      simp only [loopStep] at hs
      split at hs
      · next context hcontext =>
          cases hs
          exact .write hcontext (writeNext ptr context.fd server.status _)
      · cases hs
  | rearming ptr fd mask =>
      cases hs
      exact .rearm
  | closing pc =>
      obtain ⟨⟨closed, next, call⟩, hclosed, heq⟩ := Option.map_eq_some_iff.mp hs
      cases heq
      exact .close (closeAndRelease_move hclosed)
  | stopped => cases hs

-- Every step of the server is one of these.
theorem step_move {action : Action Input} (hs : step watcher server action = some (after, label)) :
    server.Move watcher action after label := by
  cases action with
  | stopEpoll =>
      cases hs
      exact .stopEpoll
  | listen =>
      simp only [step] at hs
      split at hs
      · next hpc =>
          cases hs
          exact .listen hpc
      · cases hs
  | deliver fd events =>
      simp only [step] at hs
      split at hs
      · next ptr mask harmed =>
          split at hs
          · next h =>
              cases hs
              exact .deliver harmed h.1 h.2
          · cases hs
      · cases hs
  | loop env => exact .loop (loopStep_move hs)
  | worker j env =>
      obtain ⟨hand, hhand, hstep⟩ := Option.bind_eq_some_iff.mp hs
      exact .worker hhand (workerStep_move hstep)

-- `close_and_release` leaves the threads, the array of events and the place of the loop alone.
theorem CloseMove.keeps {pc : ClosePc} {next : Option ClosePc}
    (move : server.CloseMove pc after next label) :
    after.threadPool = server.threadPool ∧ after.events = server.events ∧ after.pc = server.pc := by
  cases move <;> exact ⟨rfl, rfl, rfl⟩

end EpollSocket

end VideoAdapter.Http

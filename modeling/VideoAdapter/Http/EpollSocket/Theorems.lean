import VideoAdapter.Http.EpollSocket.Refinement

namespace VideoAdapter.Http

open Lib Custody

namespace EpollSocket

variable {State Input : Type*} {watcher : EpollSocketWatcher State Input} {threads : Nat}
  {history : List (Action Input × Option (Nat × Call Input))} {server after : EpollSocket State}
  {label : Option (Nat × Call Input)}

-- Who may touch which context and which descriptor.
structure Exclusive (server : EpollSocket State) : Prop where
  held_once : (server.tokens.map Prod.fst).Nodup
  held_live : ∀ ptr ∈ server.tokens.map Prod.fst, ∃ context, server.heap[ptr]? = some (some context)
  registered : ∀ fd registration, server.epoll fd = some registration →
    ∃ context, server.heap[registration.ptr]? = some (some context) ∧ context.fd = fd ∧
      (registration.armed.isSome → registration.ptr ∉ server.tokens.map Prod.fst)
  opened : ∀ (ptr : Nat) (context : EpollContext State), server.heap[ptr]? = some (some context) →
    server.opened context.fd = true ∧ context.fd ∉ server.loose
  distinct : ∀ (ptr other : Nat) (context context' : EpollContext State),
    server.heap[ptr]? = some (some context) → server.heap[other]? = some (some context') →
      context.fd = context'.fd → ptr = other
  closed_once : server.loose.Nodup ∧ ∀ fd ∈ server.loose, server.opened fd = true

section Custody

variable {conns : List (Option (Conn State))}

theorem Matches.context (h : Matches conns server.heap) {ptr : Nat} {conn : Conn State}
    (hconn : conns[ptr]? = some (some conn)) : server.heap[ptr]? = some (some conn.context) := by
  rw [← h, List.getElem?_map, hconn]
  rfl

theorem exclusive_of_valid (hmatch : Matches conns server.heap) (h : (server.custody conns).Valid) :
    server.Exclusive where
  held_once := h.nodup
  held_live := by
    intro ptr hmem
    obtain ⟨⟨ptr, stage⟩, htoken, rfl⟩ := List.mem_map.mp hmem
    obtain ⟨conn, hconn, -⟩ := h.held ptr stage htoken
    exact ⟨_, hmatch.context hconn⟩
  registered := by
    intro fd registration hregistration
    obtain ⟨conn, hconn, hfd, harmed⟩ := h.registered fd registration hregistration
    refine ⟨_, hmatch.context hconn, hfd, fun hsome => ?_⟩
    obtain ⟨mask, hmask⟩ := Option.isSome_iff_exists.mp hsome
    exact (harmed mask hmask).1
  opened := by
    intro ptr context hcontext
    obtain ⟨conn, hconn, rfl⟩ := hmatch.conn hcontext
    exact h.opened ptr conn hconn
  distinct := by
    intro ptr other context context' hcontext hcontext' hfd
    obtain ⟨conn, hconn, rfl⟩ := hmatch.conn hcontext
    obtain ⟨conn', hconn', rfl⟩ := hmatch.conn hcontext'
    exact h.distinct ptr other conn conn' hconn hconn' hfd
  closed_once := ⟨h.loose_nodup, h.loose_opened⟩

end Custody

-- The watcher of a server that answers each request at once and keeps the number of requests.
def counter : EpollSocketWatcher Nat Unit where
  onAccept _ := 0
  onReadable state _ := (state + 1, .readOver)
  onWriteable state _ := (state, .writeConnAlive)

def turn : Action Unit := .loop { input := () }

-- A client connects as descriptor 5 and sends its request, which a thread of the pool takes.
def connects : List (Action Unit) :=
  [turn, .listen, turn, .loop { accepted := some 5, input := () }, turn, turn, turn, turn, turn]

def requests : List (Action Unit) :=
  connects ++ [.deliver 5 .readable, turn, turn, .worker 0 { input := () }]

-- In every state of every run no two threads have one connection, no thread and no entry of the epoll
-- set leads to a context that was deleted, the kernel does not fire for what a thread has, and every
-- descriptor that is to be closed is open and is closed by one thread.
theorem contexts_exclusive (run : Run (step watcher) free (started threads) history server) :
    server.Exclusive := by
  obtain ⟨conns, hmatch, hvalid, -⟩ := run_custody run
  exact exclusive_of_valid hmatch hvalid

theorem contexts_exclusive_of_request :
    ∃ (history : List (Action Unit × Option (Nat × Call Unit))) (server : EpollSocket Nat),
      Run (step counter) free (started 1) history server ∧ server.tokens = [(0, .reading)] ∧
        server.Exclusive := by
  obtain ⟨history, server, run, htest⟩ := exists_run_of_ends (step counter) free (started 1) requests
    (fun _ server => decide (server.tokens = [(0, .reading)])) (guarded_free _ _ _) (by decide +kernel)
  exact ⟨history, server, run, of_decide_eq_true htest, contexts_exclusive run⟩

section Progress

theorem closeAndRelease_isSome {pc : ClosePc} (h : ∀ ptr ∈ pc.tokens.map Prod.fst,
    ∃ context, server.heap[ptr]? = some (some context)) :
    (@closeAndRelease State Input server pc).isSome := by
  cases pc with
  | releasing ptr =>
      obtain ⟨context, hcontext⟩ := h ptr List.mem_cons_self
      simp only [closeAndRelease, hcontext]
      rfl
  | closing fd => rfl
  | leaving => rfl

theorem workerStep_isSome {j : Nat} {task : ReadPc} (env : Env Input)
    (h : ∀ ptr ∈ task.tokens.map Prod.fst, ∃ context, server.heap[ptr]? = some (some context)) :
    (server.workerStep watcher j env (some task)).isSome := by
  cases task with
  | reading ptr =>
      obtain ⟨context, hcontext⟩ := h ptr List.mem_cons_self
      simp only [workerStep, hcontext]
      rfl
  | rearming ptr fd mask => rfl
  | closing pc =>
      rw [workerStep, Option.isSome_map]
      exact closeAndRelease_isSome h

theorem loopStep_isSome {env : Env Input} (hadd : env.addOk = true)
    (haccepted : ∀ fd, env.accepted = some fd → server.opened fd = false)
    {pc : LoopPc} (hpc : pc ≠ .stopped)
    (h : ∀ ptr ∈ pc.tokens.map Prod.fst, ∃ context, server.heap[ptr]? = some (some context)) :
    (server.loopStep watcher env pc).isSome := by
  cases pc with
  | handling =>
      simp only [loopStep]
      split
      · rfl
      · next event rest hevents =>
          rw [Option.isSome_map]
          unfold handleEvent
          split
          · split
            · split
              · rfl
              · next fd hfd =>
                  rw [if_neg]
                  · rfl
                  · exact Bool.eq_false_iff.mp (haccepted fd hfd)
            · split <;> rfl
          · split <;> rfl
          · rfl
          · rfl
  | adding ptr fd =>
      simp only [loopStep, if_pos hadd]
      rfl
  | writing ptr =>
      obtain ⟨context, hcontext⟩ := h ptr List.mem_cons_self
      simp only [loopStep, hcontext]
      rfl
  | closing pc =>
      rw [loopStep, Option.isSome_map]
      exact closeAndRelease_isSome h
  | stopped => exact absurd rfl hpc
  | _ => rfl

-- So no thread ever comes to a context that is gone: the loop goes on whatever the calls of the kernel
-- return, as long as a descriptor can be added to the epoll set and a new one is not open already, and
-- so does every thread of the pool that has a task.
theorem threads_go_on (run : Run (step watcher) free (started threads) history server) :
    (∀ env : Env Input, server.pc ≠ .stopped → env.addOk = true →
      (∀ fd, env.accepted = some fd → server.opened fd = false) →
        (step watcher server (.loop env)).isSome) ∧
    ∀ (j : Nat) (task : ReadPc) (env : Env Input), server.threadPool.hands[j]? = some (some task) →
      (step watcher server (.worker j env)).isSome := by
  obtain ⟨conns, hmatch, hvalid, -⟩ := run_custody run
  have hlive := (exclusive_of_valid hmatch hvalid).held_live
  constructor
  · intro env hpc hadd haccepted
    refine loopStep_isSome hadd haccepted hpc fun ptr hmem => hlive ptr ?_
    rw [tokens, List.map_append]
    exact List.mem_append_left _ hmem
  · intro j task env hhand
    rw [step, hhand, Option.bind_some]
    refine workerStep_isSome env fun ptr hmem => hlive ptr ?_
    obtain ⟨stage, hstage⟩ : ∃ stage, (ptr, stage) ∈ task.tokens := by
      obtain ⟨⟨ptr, stage⟩, htoken, rfl⟩ := List.mem_map.mp hmem
      exact ⟨stage, htoken⟩
    have hitem : task ∈ server.threadPool.items := by
      refine List.mem_append_right _ (List.mem_filterMap.mpr ⟨some task, ?_, rfl⟩)
      exact List.mem_of_getElem? hhand
    have htask : (ptr, stage) ∈ server.tokens :=
      List.mem_append_right _ (List.mem_append_right _ (List.mem_flatMap.mpr ⟨task, hitem, hstage⟩))
    exact List.mem_map_of_mem htask

theorem threads_go_on_with_request :
    ∃ (history : List (Action Unit × Option (Nat × Call Unit))) (server : EpollSocket Nat),
      Run (step counter) free (started 1) history server ∧
        server.threadPool.hands = [some (.reading 0)] ∧
        (step counter server (.worker 0 { input := () })).isSome ∧ (step counter server turn).isSome := by
  obtain ⟨history, server, run, htest⟩ := exists_run_of_ends (step counter) free (started 1) requests
    (fun _ server => decide (server.threadPool.hands = [some (.reading 0)] ∧ server.pc = .handling))
    (guarded_free _ _ _) (by decide +kernel)
  obtain ⟨hhands, hpc⟩ := of_decide_eq_true htest
  obtain ⟨hloop, hworker⟩ := threads_go_on run
  refine ⟨history, server, run, hhands, hworker 0 (.reading 0) _ ?_, hloop _ ?_ rfl nofun⟩
  · rw [hhands]
    rfl
  · rw [hpc]
    exact nofun

end Progress

-- However the threads are scheduled, the watcher is called for each connection as if it were alone:
-- `on_accept`, then `on_readable` and `on_writeable` as their results ask for, each on what the last
-- call left, and `on_close` once at the end.
theorem calls_sequential (run : Run (step watcher) free (started threads) history server) (ptr : Nat) :
    ∃ session, Session.follow watcher (callsOf ptr (history.map Prod.snd)) = some session ∧
      match server.heap[ptr]? with
      | none => session = .absent
      | some none => session = .closed
      | some (some context) => ∃ phase, session = .live phase context.ptr := by
  obtain ⟨conns, hmatch, -, hcalls⟩ := run_custody run
  refine ⟨_, hcalls ptr, ?_⟩
  rw [← hmatch, List.getElem?_map]
  simp only [session, custody]
  cases conns[ptr]? with
  | none => rfl
  | some cell =>
      cases cell with
      | none => rfl
      | some conn => exact ⟨conn.phase, rfl⟩

theorem calls_sequential_of_request :
    ∃ (history : List (Action Unit × Option (Nat × Call Unit))) (server : EpollSocket Nat),
      Run (step counter) free (started 1) history server ∧
        callsOf 0 (history.map Prod.snd) = [.onAccept 5, .onReadable () .readOver] ∧
        ∃ session, Session.follow counter (callsOf 0 (history.map Prod.snd)) = some session ∧
          ∃ phase, session = .live phase 1 := by
  obtain ⟨history, server, run, htest⟩ := exists_run_of_ends (step counter) free (started 1)
    (requests ++ [.worker 0 { input := () }])
    (fun history server => decide (callsOf 0 (history.map Prod.snd) =
      [.onAccept 5, .onReadable () .readOver] ∧
      server.heap[0]? = some (some ({ fd := 5, ptr := 1 } : EpollContext Nat))))
    (guarded_free _ _ _) (by decide +kernel)
  obtain ⟨hcalls, hheap⟩ := of_decide_eq_true htest
  obtain ⟨session, hfollow, hsession⟩ := calls_sequential run 0
  rw [hheap] at hsession
  exact ⟨history, server, run, hcalls, session, hfollow, hsession⟩

section Attended

theorem EventMove.events_eq {event : Ready} (move : server.EventMove event after) :
    after.events = server.events := by cases move <;> rfl

theorem LoopMove.events_subset {env : Env Input} {pc : LoopPc}
    (move : server.LoopMove watcher env pc after label) : after.events ⊆ server.events := by
  cases move with
  | handle hevents move =>
      rw [move.events_eq, hevents]
      exact List.subset_cons_self _ _
  | close move =>
      have hevents := move.keeps.2.1
      exact hevents ▸ List.Subset.refl _
  | _ => exact List.Subset.refl _

theorem WorkerMove.keeps {j : Nat} {env : Env Input} {hand : Option ReadPc}
    (move : server.WorkerMove watcher j env hand after label) :
    after.events = server.events ∧ after.pc = server.pc := by
  cases move with
  | close move => exact move.keeps.2
  | _ => exact ⟨rfl, rfl⟩

-- The kernel fires with an event that `handle_event` knows.
def KnownEvents (_ : List (Action Input × Option (Nat × Call Input))) (_ : EpollSocket State)
    (action : Action Input) : Prop :=
  ∀ fd, action ≠ .deliver fd .other

theorem step_known {action : Action Input} (hs : step watcher server action = some (after, label))
    (hknown : ∀ fd, action ≠ .deliver fd .other)
    (h : ∀ ptr, Ready.conn ptr .other ∉ server.events) (ptr : Nat) :
    Ready.conn ptr .other ∉ after.events := by
  cases step_move hs with
  | stopEpoll => exact h ptr
  | listen =>
      intro hmem
      rcases List.mem_append.mp hmem with hmem | hmem
      · exact h ptr hmem
      · cases List.mem_singleton.mp hmem
  | @deliver _ fd events =>
      intro hmem
      rcases List.mem_append.mp hmem with hmem | hmem
      · exact h ptr hmem
      · cases List.mem_singleton.mp hmem
        exact hknown fd rfl
  | loop move => exact fun hmem => h ptr (move.events_subset hmem)
  | worker _ move =>
      rw [move.keeps.1]
      exact h ptr

theorem dropping_mem {ptr : Nat} (h : (ptr, Stage.dropping) ∈ server.tokens) :
    Ready.conn ptr .other ∈ server.events := by
  have hclose : ∀ pc : ClosePc, (ptr, Stage.dropping) ∉ pc.tokens := by
    intro pc hmem
    cases pc <;> simp [ClosePc.tokens] at hmem
  rcases List.mem_append.mp h with hmem | hmem
  · cases hpc : server.pc with
    | closing pc =>
        rw [hpc] at hmem
        exact absurd hmem (hclose pc)
    | _ => simp [hpc, LoopPc.tokens] at hmem
  · rcases List.mem_append.mp hmem with hmem | hmem
    · obtain ⟨event, hevent, htoken⟩ := List.mem_flatMap.mp hmem
      cases event with
      | listener => simp [Ready.tokens] at htoken
      | conn other events =>
          cases events with
          | other =>
              simp only [Ready.tokens, List.mem_singleton, Prod.mk.injEq, and_true] at htoken
              rw [htoken]
              exact hevent
          | _ => simp [Ready.tokens] at htoken
    · obtain ⟨task, -, htoken⟩ := List.mem_flatMap.mp hmem
      cases task with
      | closing pc => exact absurd htoken (hclose pc)
      | _ => simp [ReadPc.tokens] at htoken

theorem run_attended (run : Run (step watcher) KnownEvents (started threads) history server) :
    ∃ conns, Matches conns server.heap ∧ (server.custody conns).Valid ∧
      (∀ ptr, Ready.conn ptr .other ∉ server.events) ∧
        ∀ (ptr : Nat) (conn : Conn State), conns[ptr]? = some (some conn) →
          (server.custody conns).Attended ptr conn := by
  refine run.invariant (fun _ server => ∃ conns, Matches conns server.heap ∧
    (server.custody conns).Valid ∧ (∀ ptr, Ready.conn ptr .other ∉ server.events) ∧
      ∀ (ptr : Nat) (conn : Conn State), conns[ptr]? = some (some conn) →
        (server.custody conns).Attended ptr conn) ?_ ?_
  · obtain ⟨conns, hmatch, hvalid, -⟩ :=
      run_custody (.init : Run (step watcher) free (started threads) [] _)
    obtain rfl : conns = [] := List.map_eq_nil_iff.mp hmatch
    exact ⟨[], hmatch, hvalid, nofun, fun ptr conn hconn => by simp at hconn⟩
  · rintro history before action after label ⟨conns, hmatch, hvalid, hother, hattended⟩ hknown hs
    obtain ⟨conns', hmatch', hstep⟩ := step_custody hs hmatch
    refine ⟨conns', hmatch', hstep.valid hvalid, step_known hs hknown hother, ?_⟩
    exact hstep.attended hvalid (fun ptr hmem => hother ptr (dropping_mem hmem)) hattended

-- As long as the kernel fires with nothing else, no connection is lost: each one is with a thread, in
-- the queue, among the events, or armed.
theorem none_forgotten (run : Run (step watcher) KnownEvents (started threads) history server) (ptr : Nat)
    (context : EpollContext State) (hcontext : server.heap[ptr]? = some (some context)) :
    ptr ∈ server.tokens.map Prod.fst ∨
      ∃ mask, server.epoll context.fd = some { ptr := ptr, armed := some mask } := by
  obtain ⟨conns, hmatch, -, -, hattended⟩ := run_attended run
  obtain ⟨conn, hconn, rfl⟩ := hmatch.conn hcontext
  exact hattended ptr conn hconn

def known : Action Input → Bool
  | .deliver _ .other => false
  | _ => true

theorem knownEvents_of_known (history : List (Action Input × Option (Nat × Call Input)))
    (server : EpollSocket State) (action : Action Input) (h : known action = true) :
    KnownEvents history server action := by
  rintro fd rfl
  cases h

theorem none_forgotten_idle :
    ∃ (history : List (Action Unit × Option (Nat × Call Unit))) (server : EpollSocket Nat),
      Run (step counter) KnownEvents (started 1) history server ∧ server.tokens = [] ∧
        (0 ∈ server.tokens.map Prod.fst ∨
          ∃ mask, server.epoll 5 = some { ptr := 0, armed := some mask }) := by
  obtain ⟨history, server, run, htest⟩ :=
    exists_run_of_ends (step counter) KnownEvents (started 1) connects
    (fun _ server => decide (server.tokens = [] ∧
      server.heap[0]? = some (some ({ fd := 5, ptr := 0 } : EpollContext Nat))))
    (guarded_of_passes (fun _ _ action => known action) knownEvents_of_known (by decide +kernel))
    (by decide +kernel)
  obtain ⟨htokens, hheap⟩ := of_decide_eq_true htest
  exact ⟨history, server, run, htokens, none_forgotten run 0 _ hheap⟩

end Attended

end EpollSocket

end VideoAdapter.Http

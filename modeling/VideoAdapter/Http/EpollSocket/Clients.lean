import VideoAdapter.Http.EpollSocket.Theorems
import VideoAdapter.Lib.Threads

namespace VideoAdapter.Http

open Lib Custody

-- What is counted in `_clients` beside the contexts.
def ClosePc.pending : ClosePc → Nat
  | .releasing _ => 0
  | .closing _ => 1
  | .leaving => 1

def ReadPc.pending : ReadPc → Nat
  | .closing pc => pc.pending
  | _ => 0

def LoopPc.pending : LoopPc → Nat
  | .opening _ => 1
  | .closing pc => pc.pending
  | _ => 0

-- An accepted connection that is not counted yet.
def LoopPc.uncounted : LoopPc → Nat
  | .counting _ => 1
  | _ => 0

theorem ReadNext.pending_eq {ptr fd : Nat} {ret : ReadRet} {next : ReadPc}
    (h : ReadNext ptr fd ret next) : next.pending = 0 := by cases h <;> rfl

-- Whatever `on_writeable` returned, it does not change what is counted.
theorem WriteNext.counts {ptr fd : Nat} {ret : WriteRet} {next : LoopPc}
    (h : WriteNext ptr fd ret next) :
    next.pending = 0 ∧ next.uncounted = 0 ∧ next ≠ .stopped := by
  cases h <;> exact ⟨rfl, rfl, nofun⟩

namespace EpollSocket

variable {State Input : Type*} {watcher : EpollSocketWatcher State Input} {threads : Nat}
  {history : List (Action Input × Option (Nat × Call Input))} {server after : EpollSocket State}
  {label : Option (Nat × Call Input)}

def live (server : EpollSocket State) : Nat := server.heap.countP Option.isSome

def pending (server : EpollSocket State) : Nat :=
  server.pc.pending + (server.threadPool.items.map ReadPc.pending).sum

-- `_clients` is what it should be, and with `S_STOP` there is at most one client left.
structure Counted (server : EpollSocket State) : Prop where
  clients_eq : server.clients = server.live + server.pending
  of_stop : server.status = .stop → server.clients + server.pc.uncounted ≤ 1
  of_stopped : server.pc = .stopped → server.clients ≤ 1

theorem live_set {ptr : Nat} {old : EpollContext State} (hold : server.heap[ptr]? = some (some old))
    (next : Option (EpollContext State)) :
    (server.heap.set ptr next).countP Option.isSome + 1 =
      server.live + if next.isSome then 1 else 0 :=
  countP_move Option.isSome hold next

-- `close_and_release` counts one less when it has closed one, and stops the loop at zero.
theorem CloseMove.counts {pc : ClosePc} {next : Option ClosePc} {others : Nat}
    (move : server.CloseMove pc after next label)
    (h : server.clients = server.live + (pc.pending + others : Nat)) :
    after.clients = after.live + ((next.map ClosePc.pending).getD 0 + others : Nat) ∧
      after.clients ≤ server.clients ∧
        (after.status = server.status ∨ after.status = .stop ∧ after.clients = 0) := by
  cases move with
  | release hcontext =>
      have hlive := live_set hcontext none
      simp only [Option.isSome_none, Bool.false_eq_true, if_false] at hlive
      refine ⟨?_, Int.le_refl _, .inl rfl⟩
      simp only [live, ClosePc.pending, Option.map_some, Option.getD_some, arm] at *
      omega
  | close => exact ⟨h, Int.le_refl _, .inl rfl⟩
  | leave =>
      refine ⟨?_, ?_, .inl rfl⟩
      · simp only [live, ClosePc.pending, Option.map_none, Option.getD_none] at *
        omega
      · dsimp only
        omega
  | last hzero =>
      refine ⟨?_, ?_, .inr ⟨rfl, hzero⟩⟩
      · simp only [live, ClosePc.pending, Option.map_none, Option.getD_none] at *
        omega
      · dsimp only
        omega

-- One thread of the pool, and the others.
theorem pending_hold {j : Nat} {task : ReadPc} (hj : server.threadPool.hands[j]? = some (some task))
    (next : Option ReadPc) :
    ∃ others, (server.threadPool.items.map ReadPc.pending).sum = task.pending + others ∧
      ((server.threadPool.hold j next).items.map ReadPc.pending).sum =
        (next.map ReadPc.pending).getD 0 + others := by
  obtain ⟨others, hbefore, hafter⟩ := TaskQueue.items_hold hj next
  refine ⟨(others.map ReadPc.pending).sum, ?_, ?_⟩
  · rw [(hbefore.map ReadPc.pending).sum_nat]
    rfl
  · rw [(hafter.map ReadPc.pending).sum_nat, List.map_append, List.sum_append]
    cases next <;> simp

-- A thread that has called `on_readable` has closed nothing yet.
theorem read_counted {j ptr : Nat} {next : ReadPc} {context : EpollContext State}
    (hhand : server.threadPool.hands[j]? = some (some (.reading ptr)))
    (hcontext : server.heap[ptr]? = some (some context)) (state : State) (hnext : next.pending = 0)
    (h : server.Counted) :
    Counted { server with
      heap := server.heap.set ptr (some { context with ptr := state })
      threadPool := server.threadPool.hold j (some next) } := by
  obtain ⟨hclients, hstop, hstopped⟩ := h
  have hlive := live_set hcontext (some { context with ptr := state })
  simp only [Option.isSome_some, if_true] at hlive
  obtain ⟨others, hbefore, hafter⟩ := pending_hold hhand (some next)
  rw [Option.map_some, Option.getD_some, hnext] at hafter
  have hzero : (ReadPc.reading ptr).pending = 0 := rfl
  rw [pending, hbefore, hzero, ← hafter, ← Nat.add_right_cancel hlive] at hclients
  exact ⟨hclients, hstop, hstopped⟩

theorem WorkerMove.counted {j : Nat} {env : Env Input} {hand : Option ReadPc}
    (move : server.WorkerMove watcher j env hand after label)
    (hhand : server.threadPool.hands[j]? = some hand) (h : server.Counted) : after.Counted := by
  obtain ⟨hclients, hstop, hstopped⟩ := h
  cases move with
  | take hpool =>
      refine ⟨?_, hstop, hstopped⟩
      have hitems := ((TaskQueue.items_take hpool).map ReadPc.pending).sum_nat
      simp only [live, pending] at *
      omega
  | read hcontext hnext =>
      exact read_counted hhand hcontext _ hnext.pending_eq ⟨hclients, hstop, hstopped⟩
  | rearm =>
      refine ⟨?_, hstop, hstopped⟩
      obtain ⟨others, hbefore, hafter⟩ := pending_hold hhand none
      simp only [live, pending, modify, arm, ReadPc.pending, Option.map_none, Option.getD_none] at *
      omega
  | @close pc closed next call move =>
      obtain ⟨-, -, hpc⟩ := move.keeps
      obtain ⟨others, hbefore, hafter⟩ := pending_hold hhand (next.map .closing)
      have hnext : ((next.map ReadPc.closing).map ReadPc.pending).getD 0 =
          (next.map ClosePc.pending).getD 0 := by cases next <;> rfl
      rw [hnext] at hafter
      have hall : server.clients =
          server.live + (pc.pending + (server.pc.pending + others) : Nat) := by
        rw [hclients, pending, hbefore, ReadPc.pending]
        omega
      obtain ⟨hcount, hle, hstatus⟩ := move.counts hall
      refine ⟨?_, ?_, ?_⟩
      · simp only [live, pending, hpc] at *
        omega
      · intro hs
        dsimp only at hs ⊢
        rw [hpc]
        rcases hstatus with hsame | ⟨-, hzero⟩
        · have := hstop (hsame ▸ hs)
          omega
        · have hone : server.pc.uncounted ≤ 1 := by
            cases server.pc <;> simp [LoopPc.uncounted]
          omega
      · intro hs
        dsimp only at hs ⊢
        have := hstopped (hpc ▸ hs)
        omega

-- A step that moves the loop and neither counts nor stops.
theorem Counted.moved {final : EpollSocket State} (h : server.Counted)
    (hclients : final.clients = server.clients) (hlive : final.live = server.live)
    (hpool : final.threadPool = server.threadPool) (hstatus : final.status = server.status)
    (hpending : final.pc.pending = server.pc.pending)
    (huncounted : final.pc.uncounted = server.pc.uncounted) (hne : final.pc ≠ .stopped) :
    final.Counted := by
  refine ⟨?_, ?_, fun hs => absurd hs hne⟩
  · rw [hclients, hlive, pending, hpending, hpool]
    exact h.clients_eq
  · intro hs
    rw [hclients, huncounted]
    exact h.of_stop (hstatus ▸ hs)

theorem EventMove.counted {event : Ready} (move : server.EventMove event after)
    (hpc : server.pc = .handling) (h : server.Counted) : after.Counted := by
  have hpending : server.pc.pending = 0 := by rw [hpc]; rfl
  have huncounted : server.pc.uncounted = 0 := by rw [hpc]; rfl
  cases move with
  | ignore => exact h
  | accept hrun =>
      refine ⟨?_, ?_, nofun⟩
      · have hclients := h.clients_eq
        simp only [pending, hpc] at hclients
        exact hclients
      · intro hs
        rw [hrun] at hs
        cases hs
  | stop hzero =>
      refine ⟨h.clients_eq, ?_, ?_⟩
      · intro _
        dsimp only
        omega
      · intro hs
        rw [hpc] at hs
        cases hs
  | @queue ptr =>
      refine ⟨?_, h.of_stop, h.of_stopped⟩
      have hpush := ((TaskQueue.items_push server.threadPool (.reading ptr)).map
        ReadPc.pending).sum_nat
      have hzero : (ReadPc.reading ptr).pending = 0 := rfl
      rw [List.map_cons, List.sum_cons, hzero, Nat.zero_add] at hpush
      have hclients := h.clients_eq
      rw [pending, ← hpush] at hclients
      exact hclients
  | refuse => exact h.moved rfl rfl rfl rfl hpending.symm huncounted.symm nofun
  | write => exact h.moved rfl rfl rfl rfl hpending.symm huncounted.symm nofun
  | drop => exact h

theorem LoopMove.counted {env : Env Input}
    (move : server.LoopMove watcher env server.pc after label) (h : server.Counted) :
    after.Counted := by
  generalize hpc : server.pc = pc at move
  have hmoved : ∀ {final : EpollSocket State}, final.clients = server.clients →
      final.live = server.live → final.threadPool = server.threadPool → final.status = server.status →
      final.pc.pending = pc.pending → final.pc.uncounted = pc.uncounted → final.pc ≠ .stopped →
        final.Counted := by
    rw [← hpc]
    exact fun hclients hlive hpool hstatus hpending huncounted hne =>
      h.moved hclients hlive hpool hstatus hpending huncounted hne
  obtain ⟨hclients, hstop, hstopped⟩ := h
  cases move with
  | stop hstatus =>
      have hle := hstop hstatus
      rw [pending, hpc] at hclients
      rw [hpc] at hle
      refine ⟨hclients, fun _ => hle, fun _ => ?_⟩
      simp only [LoopPc.uncounted] at hle
      dsimp only
      omega
  | poll => exact hmoved rfl rfl rfl rfl rfl rfl nofun
  | wake => exact hmoved rfl rfl rfl rfl rfl rfl nofun
  | back => exact hmoved rfl rfl rfl rfl rfl rfl nofun
  | handle _ move => exact move.counted hpc ⟨hclients, hstop, hstopped⟩
  | count =>
      refine ⟨?_, ?_, nofun⟩
      · simp only [live, pending, hpc, LoopPc.pending] at *
        omega
      · intro hs
        have hle := hstop hs
        simp only [hpc, LoopPc.uncounted] at *
        omega
  | create =>
      refine ⟨?_, ?_, nofun⟩
      · simp only [live, pending, hpc, LoopPc.pending, countP_concat, Option.isSome_some, if_true] at *
        omega
      · intro hs
        have hle := hstop hs
        simp only [hpc, LoopPc.uncounted] at *
        exact hle
  | add => exact hmoved rfl rfl rfl rfl rfl rfl nofun
  | @write ptr context next hcontext hnext =>
      have hlive := live_set hcontext
        (some { context with ptr := (watcher.onWriteable context.ptr env.input).1 })
      simp only [Option.isSome_some, if_true] at hlive
      obtain ⟨hpending, huncounted, hne⟩ := hnext.counts
      exact hmoved rfl (Nat.add_right_cancel hlive) rfl rfl hpending huncounted hne
  | rearm => exact hmoved rfl rfl rfl rfl rfl rfl nofun
  | @close pc closed next call move =>
      obtain ⟨hpool, -, -⟩ := move.keeps
      have hnext : ((next.map LoopPc.closing).getD .handling).pending =
          (next.map ClosePc.pending).getD 0 := by cases next <;> rfl
      have huncounted : ((next.map LoopPc.closing).getD .handling).uncounted = 0 := by
        cases next <;> rfl
      rw [pending, hpc, LoopPc.pending] at hclients
      obtain ⟨hcount, hle, hstatus⟩ := move.counts hclients
      refine ⟨?_, ?_, ?_⟩
      · simp only [live, pending, hnext, hpool] at *
        exact hcount
      · intro hs
        dsimp only at hs ⊢
        rw [huncounted]
        rcases hstatus with hsame | ⟨-, hzero⟩
        · have := hstop (hsame ▸ hs)
          omega
        · omega
      · intro hs
        cases next <;> cases hs

theorem step_counted {action : Action Input} (hs : step watcher server action = some (after, label))
    (h : server.Counted) : after.Counted := by
  cases step_move hs with
  | stopEpoll => exact ⟨h.clients_eq, nofun, h.of_stopped⟩
  | listen => exact ⟨h.clients_eq, h.of_stop, h.of_stopped⟩
  | deliver => exact ⟨h.clients_eq, h.of_stop, h.of_stopped⟩
  | loop move => exact move.counted h
  | worker hhand move => exact move.counted hhand h

theorem run_counted {guard : List (Action Input × Option (Nat × Call Input)) → EpollSocket State →
    Action Input → Prop} (run : Run (step watcher) guard (started threads) history server) :
    server.Counted := by
  have hitems : (started threads : EpollSocket State).threadPool.items = [] := by
    simp [started, TaskQueue.items, List.filterMap_replicate_of_none]
  have hpending : (started threads : EpollSocket State).pending = 0 := by
    rw [pending, hitems]
    rfl
  have hstart : (started threads : EpollSocket State).clients =
      (started threads : EpollSocket State).live + (started threads : EpollSocket State).pending := by
    rw [hpending]
    rfl
  exact run.invariant (fun _ server => server.Counted) ⟨hstart, by simp [started], by simp [started]⟩
    fun history before action after label h _ hs => step_counted hs h

-- `_clients` never misses a connection, and when the loop ends at most one is still there: `S_STOP` may
-- come between its `accept` and its place in `_clients`.
theorem stopped_leaves_one (run : Run (step watcher) free (started threads) history server) :
    server.clients = server.live + server.pending ∧
      (server.pc = .stopped → server.live + server.pending ≤ 1) := by
  have hcounted := run_counted run
  refine ⟨hcounted.clients_eq, fun hs => ?_⟩
  have hle := hcounted.of_stopped hs
  rw [hcounted.clients_eq] at hle
  omega

-- The watcher of a server that closes each connection when it has something to read.
def closer : EpollSocketWatcher Nat Unit where
  onAccept _ := 0
  onReadable state _ := (state, .readClose)
  onWriteable state _ := (state, .writeConnClose)

def workerTurn : Action Unit := .worker 0 { input := () }

-- The one client goes while the loop has accepted another and not counted it.
def stopsEarly : List (Action Unit) :=
  connects ++ [.deliver 5 .readable, turn, turn, turn, turn, .listen, turn,
    .loop { accepted := some 6, input := () }, .stopEpoll, workerTurn, workerTurn, workerTurn, workerTurn,
    workerTurn, turn, turn, turn, turn, turn]

theorem stopped_leaves_one_open :
    ∃ (history : List (Action Unit × Option (Nat × Call Unit))) (server : EpollSocket Nat),
      Run (step closer) free (started 1) history server ∧ server.pc = .stopped ∧ server.live = 1 ∧
        server.live + server.pending ≤ 1 := by
  obtain ⟨history, server, run, htest⟩ := exists_run_of_ends (step closer) free (started 1) stopsEarly
    (fun _ server => decide (server.pc = .stopped ∧ server.live = 1)) (guarded_free _ _ _)
    (by decide +kernel)
  obtain ⟨hpc, hlive⟩ := of_decide_eq_true htest
  exact ⟨history, server, run, hpc, hlive, (stopped_leaves_one run).2 hpc⟩

section Stopping

theorem EventMove.status_kept {event : Ready} (move : server.EventMove event after)
    (hpc : server.pc = .handling) :
    (after.status = server.status ∨ after.clients = 0) ∧ after.pc ≠ .stopped := by
  have hsame : server.pc ≠ .stopped := by
    rw [hpc]
    nofun
  cases move with
  | stop hzero => exact ⟨.inr hzero, hsame⟩
  | accept => exact ⟨.inl rfl, nofun⟩
  | refuse => exact ⟨.inl rfl, nofun⟩
  | write => exact ⟨.inl rfl, nofun⟩
  | _ => exact ⟨.inl rfl, hsame⟩

theorem CloseMove.status_kept {pc : ClosePc} {next : Option ClosePc}
    (move : server.CloseMove pc after next label) :
    after.status = server.status ∨ after.clients = 0 := by
  cases move with
  | last hzero => exact .inr hzero
  | _ => exact .inl rfl

theorem LoopMove.status_kept {env : Env Input} {pc : LoopPc} (hpc : server.pc = pc)
    (move : server.LoopMove watcher env pc after label) :
    (after.status = server.status ∨ after.clients = 0) ∧
      (after.pc = .stopped → server.status = .stop) := by
  cases move with
  | stop hstatus => exact ⟨.inl rfl, fun _ => hstatus⟩
  | handle _ move =>
      obtain ⟨hstatus, hne⟩ := move.status_kept hpc
      exact ⟨hstatus, fun hs => absurd hs hne⟩
  | write _ hnext => exact ⟨.inl rfl, fun hs => absurd hs hnext.counts.2.2⟩
  | @close _ _ next _ move =>
      refine ⟨move.status_kept, fun hs => ?_⟩
      cases next <;> cases hs
  | _ => exact ⟨.inl rfl, nofun⟩

-- The loop is stopped by `S_STOP` only, which a step sets only when no client is left.
theorem step_status {action : Action Input} (hs : step watcher server action = some (after, label)) :
    (after.status = server.status ∨ after.status = .rejectConn ∨ after.clients = 0) ∧
      (after.pc = .stopped → server.status = .stop ∨ server.pc = .stopped) := by
  cases step_move hs with
  | stopEpoll => exact ⟨.inr (.inl rfl), .inr⟩
  | listen => exact ⟨.inl rfl, .inr⟩
  | deliver => exact ⟨.inl rfl, .inr⟩
  | loop move =>
      obtain ⟨hstatus, hpc⟩ := move.status_kept rfl
      exact ⟨hstatus.imp_right .inr, fun hs => .inl (hpc hs)⟩
  | worker _ move =>
      refine ⟨?_, fun hs => .inr (move.keeps.2 ▸ hs)⟩
      cases move with
      | close move => exact move.status_kept.imp_right .inr
      | _ => exact .inl rfl

end Stopping

-- What is left of a connection whose event was neither of the two that `handle_event` knows.
structure Forgotten (server : EpollSocket State) (ptr : Nat) (context : EpollContext State) : Prop where
  there : server.heap[ptr]? = some (some context)
  unheld : ptr ∉ server.tokens.map Prod.fst
  spent : server.epoll context.fd = some { ptr := ptr, armed := none }

-- Such a connection stays as it is for ever. No function of the watcher is called for it again, so not
-- `on_close`, its context and its descriptor are not given back, and `stop_epoll` never ends the loop.
theorem forgotten_forever {guard : List (Action Input × Option (Nat × Call Input)) → EpollSocket State →
    Action Input → Prop} {later : List (Action Input × Option (Nat × Call Input))}
    {final : EpollSocket State} {ptr : Nat} {context : EpollContext State}
    (run : Run (step watcher) free (started threads) history server)
    (hforgotten : server.Forgotten ptr context) (hstatus : server.status ≠ .stop)
    (hpc : server.pc ≠ .stopped) (rest : Run (step watcher) guard server later final) :
    final.Forgotten ptr context ∧ callsOf ptr (later.map Prod.snd) = [] ∧ final.pc ≠ .stopped := by
  obtain ⟨conns, hmatch, hvalid, -⟩ := run_custody run
  obtain ⟨conn, hconn, rfl⟩ := hmatch.conn hforgotten.there
  have habandoned : (server.custody conns).Abandoned ptr conn :=
    ⟨hconn, hforgotten.unheld, hforgotten.spent⟩
  obtain ⟨⟨conns', hmatch', -, h⟩, hcalls, -, -, hne⟩ := rest.invariant (fun later final =>
    (∃ conns, Matches conns final.heap ∧ (final.custody conns).Valid ∧
      (final.custody conns).Abandoned ptr conn) ∧ callsOf ptr (later.map Prod.snd) = [] ∧
        final.Counted ∧ final.status ≠ .stop ∧ final.pc ≠ .stopped)
    ⟨⟨conns, hmatch, hvalid, habandoned⟩, rfl, run_counted run, hstatus, hpc⟩ (by
      rintro later before action after label
        ⟨⟨conns, hmatch, hvalid, h⟩, hcalls, hcounted, hstatus, hpc⟩ - hs
      obtain ⟨conns', hmatch', hstep⟩ := step_custody hs hmatch
      obtain ⟨hnext, hlabel⟩ := hstep.abandoned hvalid h
      have hcounted' := step_counted hs hcounted
      -- it is one of the clients
      have hlive : 1 ≤ after.live := countP_pos_of_getElem? (hmatch'.context hnext.there) rfl
      have hclients : after.clients ≠ 0 := by
        rw [hcounted'.clients_eq]
        omega
      obtain ⟨hstatus', hpc'⟩ := step_status hs
      refine ⟨⟨conns', hmatch', hstep.valid hvalid, hnext⟩, ?_, hcounted', ?_, ?_⟩
      · rw [List.map_cons]
        cases label with
        | none =>
            rw [callsOf_none]
            exact hcalls
        | some call =>
            rw [callsOf_other fun heq => hlabel call.2 (by rw [← heq])]
            exact hcalls
      · rcases hstatus' with hsame | hreject | hzero
        · rw [hsame]
          exact hstatus
        · rw [hreject]
          exact nofun
        · exact absurd hzero hclients
      · exact fun hs => (hpc' hs).elim hstatus hpc)
  exact ⟨⟨hmatch'.context h.there, h.unheld, h.spent⟩, hcalls, hne⟩

-- The client of descriptor 5 hangs up, the server is to stop, and the loop goes round.
def hangsUp : List (Action Unit) := connects ++ [.deliver 5 .other, turn, turn]

theorem forgotten_forever_hung_up :
    ∃ (later : List (Action Unit × Option (Nat × Call Unit))) (final : EpollSocket Nat),
      final.status = .rejectConn ∧ final.pc = .polling ∧
        final.Forgotten 0 { fd := 5, ptr := 0 } ∧ callsOf 0 (later.map Prod.snd) = [] := by
  obtain ⟨history, server, run, htest⟩ := exists_run_of_ends (step counter) free (started 1) hangsUp
    (fun _ server => decide (server.heap[0]? = some (some ({ fd := 5, ptr := 0 } : EpollContext Nat)) ∧
      server.tokens = [] ∧ server.epoll 5 = some { ptr := 0, armed := none } ∧ server.status = .run ∧
        server.pc = .handling ∧ server.events = []))
    (guarded_free _ _ _) (by decide +kernel)
  obtain ⟨hheap, htokens, hepoll, hstatus, hpc, hevents⟩ := of_decide_eq_true htest
  have hforgotten : server.Forgotten 0 { fd := 5, ptr := 0 } := by
    refine ⟨hheap, ?_, hepoll⟩
    rw [htokens]
    exact List.not_mem_nil
  have hs : server.status ≠ .stop ∧ server.pc ≠ .stopped := by
    rw [hstatus, hpc]
    exact ⟨nofun, nofun⟩
  have hstop : step counter server .stopEpoll = some ({ server with status := .rejectConn }, none) := rfl
  have hround : step counter { server with status := .rejectConn } turn =
      some ({ server with status := .rejectConn, pc := .looping }, none) := by
    simp only [step, turn, loopStep, hpc, hevents]
  have rest : Run (step counter) free server [(turn, none), (turn, none), (.stopEpoll, none)]
      { server with status := .rejectConn, pc := .polling } :=
    ((Run.init.next trivial hstop).next trivial hround).next trivial rfl
  obtain ⟨hfinal, hcalls, -⟩ := forgotten_forever run hforgotten hs.1 hs.2 rest
  exact ⟨_, _, rfl, rfl, hfinal, hcalls⟩

-- Nothing is left that could bring the loop on.
structure Idle (server : EpollSocket State) : Prop where
  status_eq : server.status = .rejectConn
  events_eq : server.events = []
  items_eq : server.threadPool.items = []
  unarmed : ∀ fd, server.epoll fd = none
  between : server.pc = .looping ∨ server.pc = .polling ∨ server.pc = .handling

theorem idle_of_clients (hexclusive : server.Exclusive) (hcounted : server.Counted)
    (hstatus : server.status = .rejectConn) (hclients : server.clients = 0)
    (hpc : server.pc = .looping ∨ server.pc = .polling ∨ server.pc = .handling)
    (hevents : server.events = []) : server.Idle := by
  have hcount := hcounted.clients_eq
  rw [hclients] at hcount
  have hgone : ∀ (ptr : Nat) (context : EpollContext State), server.heap[ptr]? ≠ some (some context) := by
    intro ptr context hcontext
    have hlive : 0 < server.live := countP_pos_of_getElem? hcontext rfl
    omega
  have hunheld : server.tokens = [] := by
    refine List.eq_nil_iff_forall_not_mem.mpr fun token hmem => ?_
    obtain ⟨context, hcontext⟩ := hexclusive.held_live _ (List.mem_map_of_mem hmem)
    exact hgone _ _ hcontext
  refine ⟨hstatus, hevents, ?_, ?_, hpc⟩
  · refine List.eq_nil_iff_forall_not_mem.mpr fun task hmem => ?_
    have hnone : ∀ token, token ∉ task.tokens := by
      intro token htoken
      have hheld : token ∈ server.tokens := List.mem_append_right _
        (List.mem_append_right _ (List.mem_flatMap.mpr ⟨task, hmem, htoken⟩))
      rw [hunheld] at hheld
      cases hheld
    have hzero : task.pending = 0 := by
      refine List.sum_eq_zero_iff_forall_eq_nat.mp ?_ _ (List.mem_map_of_mem hmem)
      simp only [pending] at hcount
      omega
    cases task with
    | reading ptr => exact hnone _ List.mem_cons_self
    | rearming ptr fd mask => exact hnone _ List.mem_cons_self
    | closing pc =>
        cases pc with
        | releasing ptr => exact hnone _ List.mem_cons_self
        | closing fd => cases hzero
        | leaving => cases hzero
  · intro fd
    cases hfd : server.epoll fd with
    | none => rfl
    | some registration =>
        obtain ⟨context, hcontext, -⟩ := hexclusive.registered fd registration hfd
        exact absurd hcontext (hgone _ _)

theorem Idle.next {action : Action Input} (h : server.Idle) (hlisten : action ≠ .listen)
    (hs : step watcher server action = some (after, label)) : after.Idle ∧ label = none := by
  obtain ⟨hstatus, hevents, hitems, hunarmed, hpc⟩ := h
  obtain ⟨hqueue, hhands⟩ := List.append_eq_nil_iff.mp hitems
  cases step_move hs with
  | stopEpoll => exact ⟨⟨rfl, hevents, hitems, hunarmed, hpc⟩, rfl⟩
  | listen => exact absurd rfl hlisten
  | deliver harmed =>
      rw [hunarmed] at harmed
      cases harmed
  | loop move =>
      rcases hpc with hpc | hpc | hpc <;> rw [hpc] at move
      · cases move with
        | stop hstop =>
            rw [hstatus] at hstop
            cases hstop
        | poll => exact ⟨⟨hstatus, hevents, hitems, hunarmed, .inr (.inl rfl)⟩, rfl⟩
      · cases move with
        | wake => exact ⟨⟨hstatus, hevents, hitems, hunarmed, .inr (.inr rfl)⟩, rfl⟩
      · cases move with
        | back => exact ⟨⟨hstatus, hevents, hitems, hunarmed, .inl rfl⟩, rfl⟩
        | handle hsome =>
            rw [hevents] at hsome
            cases hsome
  | @worker j env hand _ _ hhand move =>
      cases hand with
      | none =>
          cases move with
          | take hpool =>
              simp only [TaskQueue.take, hhand, hqueue] at hpool
              cases hpool
      | some task =>
          have hmem : task ∈ server.threadPool.hands.filterMap id :=
            List.mem_filterMap.mpr ⟨some task, List.mem_of_getElem? hhand, rfl⟩
          rw [hhands] at hmem
          cases hmem

-- `stop_epoll` alone does not end a server without clients: until the next client knocks the loop
-- waits, whatever else happens.
theorem stop_waits_for_listener {later : List (Action Input × Option (Nat × Call Input))}
    {final : EpollSocket State} (run : Run (step watcher) free (started threads) history server)
    (hstatus : server.status = .rejectConn) (hclients : server.clients = 0)
    (hpc : server.pc = .looping ∨ server.pc = .polling ∨ server.pc = .handling)
    (hevents : server.events = [])
    (rest : Run (step watcher) (fun _ _ action => action ≠ .listen) server later final) :
    final.pc ≠ .stopped ∧ final.status = .rejectConn ∧ ∀ entry ∈ later, entry.2 = none := by
  obtain ⟨conns, hmatch, hvalid, -⟩ := run_custody run
  have hstart := idle_of_clients (exclusive_of_valid hmatch hvalid) (run_counted run) hstatus hclients hpc
    hevents
  obtain ⟨hidle, hnone⟩ := rest.invariant
    (fun later final => final.Idle ∧ ∀ entry ∈ later, entry.2 = none) ⟨hstart, nofun⟩ (by
      rintro later before action after label ⟨hidle, hnone⟩ hlisten hs
      obtain ⟨hnext, rfl⟩ := hidle.next hlisten hs
      refine ⟨hnext, fun entry hmem => ?_⟩
      rcases List.mem_cons.mp hmem with rfl | hmem
      · rfl
      · exact hnone entry hmem)
  refine ⟨fun hs => ?_, hidle.status_eq, hnone⟩
  rcases hidle.between with hpc | hpc | hpc <;> rw [hs] at hpc <;> cases hpc

theorem stop_waits_for_listener_at_once :
    ∃ (later : List (Action Unit × Option (Nat × Call Unit))) (final : EpollSocket Nat),
      later.length = 3 ∧ final.pc ≠ .stopped ∧ final.status = .rejectConn := by
  have run : Run (step counter) free (started 1) [(.stopEpoll, none)]
      { (started 1 : EpollSocket Nat) with status := .rejectConn } := Run.init.next trivial rfl
  obtain ⟨later, final, rest, htest⟩ := exists_run_of_ends (step counter)
    (fun _ _ action => action ≠ .listen) { (started 1 : EpollSocket Nat) with status := .rejectConn }
    [turn, turn, turn] (fun later _ => decide (later.length = 3))
    (.cons nofun fun _ _ _ => .cons nofun fun _ _ _ => .cons nofun fun _ _ _ => trivial)
    (by decide +kernel)
  obtain ⟨hne, hreject, -⟩ := stop_waits_for_listener run rfl rfl (.inl rfl) rfl rest
  exact ⟨later, final, of_decide_eq_true htest, hne, hreject⟩

end EpollSocket

end VideoAdapter.Http

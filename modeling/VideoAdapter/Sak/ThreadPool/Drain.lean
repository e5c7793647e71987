import VideoAdapter.Sak.ThreadPool.Theorems

namespace VideoAdapter.Sak

open Lib

variable {Task : Type*}

-- A bound on the steps that a thread still makes without finding another task.
def WorkerPc.left : WorkerPc Task → Nat
  | .locking => 2
  | .checking => 1
  | .waiting => 0
  | .woken => 2
  | .taking => 0
  | .running _ => 3
  | .exited => 0

-- For a caller the task that it brings counts as well.
def AdderPc.left : AdderPc Task → Nat
  | .locking _ => 11
  | .testing _ => 10
  | .pushing _ => 9
  | .signalling => 3
  | .returned _ => 0

def MainPc.left (poolSize : Nat) : MainPc → Nat
  | .joining i => 2 * (poolSize - i) + 1
  | .rebroadcasting i => 2 * (poolSize - (i + 1)) + 2
  | _ => 0

namespace Action

-- The steps of the threads that are under way: no new call, and no wake-up out of nothing.
def inner : Action Task → Bool
  | .adder _ _ => true
  | .worker _ => true
  | _ => false

-- The same with the owner's steps.
def closing : Action Task → Bool
  | .adder _ _ => true
  | .worker _ => true
  | .main _ => true
  | _ => false

end Action

namespace ThreadPool

def work (pool : ThreadPool Task) : Nat :=
  5 * pool.tasks.length + (pool.threads.map WorkerPc.left).sum + (pool.adders.map AdderPc.left).sum

-- A run of the threads under way, without and with the owner's steps.
def UnderWay (_ : List (Action Task × Mark Task)) (_ : ThreadPool Task) (action : Action Task) : Prop :=
  action.inner = true

def Closing (_ : List (Action Task × Mark Task)) (_ : ThreadPool Task) (action : Action Task) : Prop :=
  action.closing = true

-- No thread under way can go on.
def Settled (pool : ThreadPool Task) : Prop :=
  ∀ action : Action Task, action.inner = true → step pool action = none

section Move

variable {pool after : ThreadPool Task} {mark : Mark Task}

theorem worker_work {j : Nat} {pc next : WorkerPc Task} {tasks : List Task} {locked : Bool}
    (hj : pool.threads[j]? = some pc) (hpc : pc ≠ .waiting)
    (move : WorkerMove pool pc tasks locked next mark) :
    work { pool with tasks := tasks, locked := locked, threads := pool.threads.set j next } <
      work pool := by
  have hsum := sum_move WorkerPc.left hj next
  simp only [work]
  cases move with
  | enter hpc =>
      rcases hpc with rfl | rfl <;> simp only [WorkerPc.left] at hsum <;> omega
  | see _ htasks =>
      simp only [WorkerPc.left] at hsum
      omega
  | pop htasks =>
      simp only [WorkerPc.left] at hsum
      rw [htasks, List.length_cons]
      omega
  | wake => exact absurd rfl hpc
  | _ =>
      simp only [WorkerPc.left] at hsum
      omega

theorem adder_work {i : Nat} {pc next : AdderPc Task} {tasks : List Task} {locked : Bool}
    (hi : pool.adders[i]? = some pc) (move : AdderMove pool pc tasks locked next mark) :
    work { pool with tasks := tasks, locked := locked, adders := pool.adders.set i next } <
      work pool := by
  have hsum := sum_move AdderPc.left hi next
  simp only [work]
  cases move with
  | push =>
      simp only [AdderPc.left] at hsum
      rw [List.length_append, List.length_singleton]
      omega
  | _ =>
      simp only [AdderPc.left] at hsum
      omega

theorem signal_work {i k : Nat} (hi : pool.adders[i]? = some .signalling)
    (hk : pool.threads[k]? = some .waiting) :
    work { pool with
      threads := pool.threads.set k .woken, adders := pool.adders.set i (.returned 0) } <
      work pool := by
  have hadder := sum_move AdderPc.left hi (.returned 0)
  have hworker := sum_move WorkerPc.left hk .woken
  simp only [work, WorkerPc.left, AdderPc.left] at *
  omega

theorem inner_work {action : Action Task} (haction : action.inner = true)
    (hs : step pool action = some (after, mark)) : work after < work pool := by
  cases action with
  | adder i k =>
      obtain ⟨pc, hi, hpc⟩ := Option.bind_eq_some_iff.mp hs
      rcases addTask_move hpc with ⟨_, _, _, hmove, rfl⟩ | ⟨rfl, -, hk, rfl⟩
      · exact adder_work hi hmove
      · exact signal_work hi hk
  | worker j =>
      obtain ⟨pc, hj, hpc⟩ := Option.bind_eq_some_iff.mp hs
      obtain ⟨hwaiting, _, _, _, hmove, rfl⟩ := executeThread_move hpc
      exact worker_work hj hwaiting hmove
  | _ => cases haction

end Move

section Settled

variable {pool : ThreadPool Task}

-- A thread of the pool is stopped only by the mutex, by sleep or by its end.
theorem executeThread_ne_none (hsupplied : Supplied pool) {j : Nat} {pc : WorkerPc Task}
    (hj : pool.threads[j]? = some pc) (hlock : pool.locked = true → pc.holds = true ∨ pc.hand.isSome)
    (hwaiting : pc ≠ .waiting) (hexited : pc ≠ .exited) : step pool (.worker j) ≠ none := by
  simp only [step, hj, Option.bind_some]
  cases pc with
  | locking | woken =>
      have hfree : pool.locked ≠ true := fun h => by simpa [WorkerPc.holds, WorkerPc.hand] using hlock h
      simp only [executeThread, if_neg hfree]
      exact Option.some_ne_none _
  | checking =>
      simp only [executeThread]
      split
      · exact Option.some_ne_none _
      · split <;> exact Option.some_ne_none _
  | taking =>
      obtain ⟨htasks, -⟩ := hsupplied (countP_pos_of_getElem? hj rfl)
      simp only [executeThread]
      split
      · next hempty => exact absurd hempty htasks
      · exact Option.some_ne_none _
  | running task => exact Option.some_ne_none _
  | waiting => exact absurd rfl hwaiting
  | exited => exact absurd rfl hexited

-- A caller is stopped only by the mutex or by its end.
theorem addTask_ne_none {i : Nat} {pc : AdderPc Task} (hi : pool.adders[i]? = some pc)
    (hlock : pool.locked = true → pc.holds = true ∨ pc.signals = true)
    (hreturned : ∀ ret, pc ≠ .returned ret) : ∃ k, step pool (.adder i k) ≠ none := by
  simp only [step, hi, Option.bind_some]
  cases pc with
  | locking task =>
      have hfree : pool.locked ≠ true := fun h => by simpa [AdderPc.holds, AdderPc.signals] using hlock h
      refine ⟨0, ?_⟩
      simp only [addTask, if_neg hfree]
      exact Option.some_ne_none _
  | testing task =>
      refine ⟨0, ?_⟩
      simp only [addTask]
      split <;> exact Option.some_ne_none _
  | pushing task => exact ⟨0, Option.some_ne_none _⟩
  | signalling =>
      by_cases hany : pool.threads.any WorkerPc.waits = true
      · obtain ⟨pc, hmem, hpc⟩ := List.any_eq_true.mp hany
        obtain ⟨k, hk, rfl⟩ := List.getElem_of_mem hmem
        have hwaiting : pool.threads[k] = .waiting := by
          cases hget : pool.threads[k] <;> simp_all [WorkerPc.waits]
        refine ⟨k, ?_⟩
        simp only [addTask, if_pos hany, List.getElem?_eq_getElem hk, hwaiting]
        exact Option.some_ne_none _
      · refine ⟨0, ?_⟩
        simp only [addTask, if_neg hany]
        exact Option.some_ne_none _
  | returned ret => exact absurd rfl (hreturned ret)

-- Nobody is left inside the mutex: the one inside could go on.
theorem Settled.unlocked (h : Settled pool) (hpool : Healthy pool) (hmain : pool.main.holds = false) :
    pool.locked = false := by
  refine Bool.eq_false_iff.mpr fun hlocked => ?_
  have hone := hpool.sound.holders_eq
  simp only [holders, hlocked, hmain, if_true, Bool.false_eq_true, if_false, Nat.add_zero] at hone
  by_cases hworker : 0 < pool.threads.countP WorkerPc.holds
  · obtain ⟨j, pc, hj, hholds⟩ := exists_of_countP_pos hworker
    refine executeThread_ne_none hpool.supplied hj (fun _ => .inl hholds) ?_ ?_ (h (.worker j) rfl)
    · rintro rfl
      cases hholds
    · rintro rfl
      cases hholds
  · have hadder : 0 < pool.adders.countP AdderPc.holds := by omega
    obtain ⟨i, pc, hi, hholds⟩ := exists_of_countP_pos hadder
    obtain ⟨k, hk⟩ := addTask_ne_none hi (fun _ => .inl hholds) (by
      rintro ret rfl
      cases hholds)
    exact hk (h (.adder i k) rfl)

theorem Settled.threads (h : Settled pool) (hpool : Healthy pool) (hmain : pool.main.holds = false)
    {pc : WorkerPc Task} (hpc : pc ∈ pool.threads) : pc = .waiting ∨ pc = .exited := by
  obtain ⟨j, hj, rfl⟩ := List.getElem_of_mem hpc
  have hfree := h.unlocked hpool hmain
  by_contra hne
  rw [not_or] at hne
  refine executeThread_ne_none hpool.supplied (List.getElem?_eq_getElem hj) (fun hlocked => ?_)
    hne.1 hne.2 (h (.worker j) rfl)
  rw [hfree] at hlocked
  cases hlocked

theorem Settled.adders (h : Settled pool) (hpool : Healthy pool) (hmain : pool.main.holds = false)
    {pc : AdderPc Task} (hpc : pc ∈ pool.adders) : ∃ ret, pc = .returned ret := by
  obtain ⟨i, hi, rfl⟩ := List.getElem_of_mem hpc
  have hfree := h.unlocked hpool hmain
  by_contra hne
  obtain ⟨k, hk⟩ := addTask_ne_none (List.getElem?_eq_getElem hi) (fun hlocked => by
    rw [hfree] at hlocked
    cases hlocked) fun ret heq => hne ⟨ret, heq⟩
  exact hk (h (.adder i k) rfl)

-- With everybody asleep nothing is left to do.
theorem Settled.tasks_eq_nil (h : Settled pool) (hpool : Healthy pool)
    (hmain : pool.main.holds = false) (hstate : pool.poolState ≠ STOPPED)
    (hthreads : pool.threads ≠ []) : pool.tasks = [] := by
  have hall : ∀ pc ∈ pool.threads, pc = .waiting := by
    intro pc hpc
    refine (h.threads hpool hmain hpc).resolve_right ?_
    rintro rfl
    exact hstate (hpool.manned.exited hpc)
  obtain ⟨pc, hpc⟩ := List.exists_mem_of_ne_nil _ hthreads
  have hwaits : 0 < pool.threads.countP WorkerPc.waits := by
    obtain rfl := hall _ hpc
    exact List.countP_pos_iff.mpr ⟨_, hpc, rfl⟩
  have hcomes : pool.threads.countP WorkerPc.comes = 0 := by
    refine List.countP_eq_zero.mpr fun pc hpc => ?_
    obtain rfl := hall pc hpc
    exact Bool.false_ne_true
  have hsignals : pool.adders.countP AdderPc.signals = 0 := by
    refine List.countP_eq_zero.mpr fun pc hpc => ?_
    obtain ⟨ret, rfl⟩ := h.adders hpool hmain hpc
    exact Bool.false_ne_true
  have hlen := hpool.awake hstate hwaits
  exact List.length_eq_zero_iff.mp (by omega)

end Settled

-- The threads under way leave the owner's side alone.
theorem inner_keeps {pool after : ThreadPool Task} {mark : Mark Task} {action : Action Task}
    (haction : action.inner = true) (hs : step pool action = some (after, mark)) :
    after.poolState = pool.poolState ∧ after.main = pool.main ∧
      after.threads.length = pool.threads.length := by
  cases action with
  | adder i k =>
      obtain ⟨pc, -, hpc⟩ := Option.bind_eq_some_iff.mp hs
      rcases addTask_move hpc with ⟨_, _, _, -, rfl⟩ | ⟨-, -, -, rfl⟩
      · exact ⟨rfl, rfl, rfl⟩
      · exact ⟨rfl, rfl, List.length_set⟩
  | worker j =>
      obtain ⟨pc, -, hpc⟩ := Option.bind_eq_some_iff.mp hs
      obtain ⟨-, _, _, _, -, rfl⟩ := executeThread_move hpc
      exact ⟨rfl, rfl, List.length_set⟩
  | _ => cases haction

-- No wake-up is lost: in whatever way the threads go on, they come to a stop after so many steps at
-- most, and then every task that was ever accepted has been run, and all of them sleep.
theorem queue_drains {poolSize : Nat} {taskSizeLimit : Int} {pool final : ThreadPool Task}
    {history later : List (Action Task × Mark Task)}
    (run : Run step free (created poolSize taskSizeLimit) history pool)
    (hstate : pool.poolState ≠ STOPPED) (hmain : pool.main.holds = false) (hthreads : pool.threads ≠ [])
    (rest : Run step UnderWay pool later final) :
    later.length ≤ pool.work ∧
      (Settled final → final.tasks = [] ∧ (∀ pc ∈ final.threads, pc = .waiting) ∧
        (marked Mark.pushed? (later ++ history)).Perm (marked Mark.finished? (later ++ history))) := by
  have hpool := healthy_of_run (healthy_created poolSize taskSizeLimit) run
  refine ⟨?_, fun hsettled => ?_⟩
  · have hle := rest.length_le work (fun _ => True) trivial
      fun _ _ action _ _ _ (haction : action.inner = true) hs => ⟨trivial, inner_work haction hs⟩
    omega
  · have hfinal := healthy_of_run hpool rest
    obtain ⟨hsame, hkept, hlength⟩ := rest.invariant
      (fun _ state => state.poolState = pool.poolState ∧ state.main = pool.main ∧
        state.threads.length = pool.threads.length) ⟨rfl, rfl, rfl⟩ (by
      rintro _ _ _ _ _ ⟨h1, h2, h3⟩ haction hs
      obtain ⟨k1, k2, k3⟩ := inner_keeps haction hs
      exact ⟨k1.trans h1, k2.trans h2, k3.trans h3⟩)
    rw [← hsame] at hstate
    rw [← hkept] at hmain
    have hne : final.threads ≠ [] := by
      rw [← List.length_pos_iff_ne_nil] at hthreads ⊢
      omega
    have hnil := hsettled.tasks_eq_nil hfinal hmain hstate hne
    have hasleep : ∀ pc ∈ final.threads, pc = .waiting := by
      intro pc hpc
      refine (hsettled.threads hfinal hmain hpc).resolve_right ?_
      rintro rfl
      exact hstate (hfinal.manned.exited hpc)
    refine ⟨hnil, hasleep, ?_⟩
    have hconserved := conserved_of_run (run.append rest)
    have hhands : final.inHand = [] := by
      refine List.filterMap_eq_nil_iff.mpr fun pc hpc => ?_
      obtain rfl := hasleep pc hpc
      rfl
    have htaken := hconserved.taken_perm
    rw [hconserved.queue_eq, hnil, List.append_nil]
    rwa [hhands, List.append_nil] at htaken

-- The one thread sleeps, and a caller is inside the mutex with a task.
def asleep : ThreadPool Nat where
  poolSize := 1
  poolState := STARTED
  locked := true
  threads := [.waiting]
  adders := [.testing 7]
  main := .started

theorem underWay_of_inner (history : List (Action Nat × Mark Nat)) (pool : ThreadPool Nat)
    (action : Action Nat) (h : action.inner = true) : UnderWay history pool action := h

theorem queue_drains_asleep : ∃ (history : List (Action Nat × Mark Nat)) (final : ThreadPool Nat),
    final.tasks = [] ∧ (marked Mark.pushed? history).Perm (marked Mark.finished? history) := by
  obtain ⟨history, pool, run, htest⟩ := exists_run_of_ends step free (created 1 (-1) : ThreadPool Nat)
    [.main true, .main true, .main true, .worker 0, .worker 0, .addTask 7, .adder 0 0]
    (fun _ pool => decide (pool = asleep)) (guarded_free _ _ _) (by decide +kernel)
  obtain rfl := of_decide_eq_true htest
  obtain ⟨later, final, rest, htest⟩ := exists_run_of_ends step UnderWay asleep
    [.adder 0 0, .adder 0 0, .adder 0 0, .worker 0, .worker 0, .worker 0, .worker 0, .worker 0,
      .worker 0]
    (fun _ final => decide (final = { asleep with locked := false, adders := [.returned 0] }))
    (guarded_of_passes (fun _ _ action => action.inner) underWay_of_inner (by decide +kernel))
    (by decide +kernel)
  obtain rfl := of_decide_eq_true htest
  have hsettled : Settled ({ asleep with locked := false, adders := [.returned 0] } : ThreadPool Nat) := by
    intro action haction
    cases action with
    | adder i k => cases i <;> rfl
    | worker j => cases j <;> rfl
    | _ => cases haction
  obtain ⟨-, hdrained⟩ := queue_drains run (by decide) rfl (List.cons_ne_nil _ _) rest
  obtain ⟨hnil, -, hperm⟩ := hdrained hsettled
  exact ⟨_, _, hnil, hperm⟩

section Stopped

variable {pool after : ThreadPool Task} {mark : Mark Task}

-- A stopped pool stays stopped, and nobody takes from its queue.
theorem Healthy.stopped_step (h : Healthy pool) (hstate : pool.poolState = STOPPED)
    (move : Move pool mark after) : after.poolState = STOPPED ∧ mark.popped? = none := by
  cases move with
  | arrive task => exact ⟨hstate, rfl⟩
  | worker hj hmove =>
      refine ⟨hstate, ?_⟩
      cases hmove with
      | pop => exact absurd hstate (h.supplied (countP_pos_of_getElem? hj rfl)).2
      | _ => rfl
  | adder hi hmove =>
      refine ⟨hstate, ?_⟩
      cases hmove <;> rfl
  | signal hi hk => exact ⟨hstate, rfl⟩
  | owner hmove =>
      refine ⟨?_, rfl⟩
      have hmain := h.sound.stopped_iff.mp hstate
      generalize pool.main = pc at hmove hmain
      cases hmove with
      | start => cases hmain
      | store => rfl
      | _ => exact hstate

-- The tasks that the queue has when `STOPPED` is stored are never begun, and neither is any task
-- that is accepted later.
theorem stopped_begins_nothing {poolSize : Nat} {taskSizeLimit : Int} {pool final : ThreadPool Task}
    {history later : List (Action Task × Mark Task)}
    (run : Run step free (created poolSize taskSizeLimit) history pool)
    (hstate : pool.poolState = STOPPED) (rest : Run step free pool later final) :
    marked Mark.popped? later = [] ∧ final.tasks = pool.tasks ++ marked Mark.pushed? later := by
  have hpool := healthy_of_run (healthy_created poolSize taskSizeLimit) run
  refine (rest.invariant (fun later state => (Healthy state ∧ state.poolState = STOPPED) ∧
    marked Mark.popped? later = [] ∧ state.tasks = pool.tasks ++ marked Mark.pushed? later)
    ⟨⟨hpool, hstate⟩, rfl, (List.append_nil _).symm⟩ ?_).2
  rintro later before action after mark ⟨⟨hhealthy, hstopped⟩, hpops, htasks⟩ - hs
  obtain ⟨hstopped', hnone⟩ := hhealthy.stopped_step hstopped (step_move hs)
  obtain ⟨hqueue, -⟩ := move_conserves (step_move hs)
  refine ⟨⟨hhealthy.step hs, hstopped'⟩, ?_, ?_⟩
  · rw [marked_cons, hpops, hnone]
    rfl
  · rw [hnone] at hqueue
    rw [marked_cons, ← List.append_assoc, ← htasks, hqueue]
    rfl

-- `STOPPED` is stored, with one task in the queue.
def halted : ThreadPool Nat where
  poolSize := 1
  poolState := STOPPED
  tasks := [7]
  threads := [.locking]
  adders := [.signalling]
  main := .broadcasting

-- Another task comes later.
theorem stopped_begins_nothing_of_two : ∃ final : ThreadPool Nat, final.tasks = [7, 8] ∧
    final.threads = [.exited] := by
  obtain ⟨history, pool, run, htest⟩ := exists_run_of_ends step free (created 1 (-1) : ThreadPool Nat)
    [.addTask 7, .adder 0 0, .adder 0 0, .adder 0 0, .main true, .main true, .main true, .main true,
      .main true, .main true]
    (fun _ pool => decide (pool = halted)) (guarded_free _ _ _) (by decide +kernel)
  obtain rfl := of_decide_eq_true htest
  obtain ⟨later, final, rest, htest⟩ := exists_run_of_ends step free halted
    [.worker 0, .worker 0, .addTask 8, .adder 1 0, .adder 1 0, .adder 1 0]
    (fun later final => decide (marked Mark.pushed? later = [8] ∧ final.threads = [.exited]))
    (guarded_free _ _ _) (by decide +kernel)
  obtain ⟨hpushed, hexited⟩ := of_decide_eq_true htest
  obtain ⟨-, htasks⟩ := stopped_begins_nothing run rfl rest
  rw [hpushed] at htasks
  exact ⟨final, htasks, hexited⟩

theorem wake_eq_self (hnone : pool.threads.countP WorkerPc.waits = 0) :
    pool.threads.map WorkerPc.wake = pool.threads := by
  refine List.map_congr_left (g := id) (fun pc hpc => ?_) |>.trans (List.map_id _)
  have hwaits := List.countP_eq_zero.mp hnone pc hpc
  cases pc <;> first | rfl | exact absurd rfl hwaits

-- The owner has broadcast, and every thread of the pool was created.
structure Joinable (pool : ThreadPool Task) : Prop where
  healthy : Healthy pool
  roused : pool.main.roused = true
  all_created : pool.threads.length = pool.poolSize

def closingWork (pool : ThreadPool Task) : Nat := pool.work + pool.main.left pool.poolSize

theorem Joinable.inner (h : Joinable pool) {action : Action Task} (haction : action.inner = true)
    (hs : step pool action = some (after, mark)) :
    Joinable after ∧ after.closingWork < pool.closingWork := by
  have hlt := inner_work haction hs
  obtain ⟨-, hmain, hlength⟩ := inner_keeps haction hs
  have hsize : after.poolSize = pool.poolSize := by cases step_move hs <;> rfl
  refine ⟨⟨h.healthy.step hs, ?_, ?_⟩, ?_⟩
  · rw [hmain]
    exact h.roused
  · rw [hlength, hsize]
    exact h.all_created
  · simp only [closingWork, hmain, hsize]
    omega

-- After the broadcast every step brings the end of `destroy_threadpool` nearer.
theorem Joinable.next (h : Joinable pool) {action : Action Task} (haction : action.closing = true)
    (hs : step pool action = some (after, mark)) :
    Joinable after ∧ after.closingWork < pool.closingWork := by
  cases action with
  | adder i k => exact h.inner rfl hs
  | worker j => exact h.inner rfl hs
  | main ok =>
      suffices hafter : after.main.roused = true ∧ after.threads.length = after.poolSize ∧
          after.closingWork < pool.closingWork from
        ⟨⟨h.healthy.step hs, hafter.1, hafter.2.1⟩, hafter.2.2⟩
      obtain ⟨next, hnext, heq⟩ := Option.map_eq_some_iff.mp hs
      cases heq
      obtain ⟨_, _, _, _, hmove, rfl⟩ := ownerStep_move hnext
      have hsame := wake_eq_self (h.healthy.sound.roused h.roused)
      have hroused := h.roused
      have hall := h.all_created
      unfold closingWork
      generalize pool.main = pc at hmove hroused
      cases hmove with
      | rebroadcast =>
          refine ⟨rfl, by simpa using hall, ?_⟩
          simp only [work, hsame, MainPc.left]
          omega
      | joined hi =>
          refine ⟨rfl, hall, ?_⟩
          simp only [work, MainPc.left]
          omega
      | last =>
          refine ⟨rfl, hall, ?_⟩
          simp only [work, MainPc.left]
          omega
      | destroy hpc => rcases hpc with rfl | rfl <;> cases hroused
      | _ => cases hroused
  | _ => cases haction

-- The owner waits in `pthread_join` only for a thread that has not ended yet.
theorem Joinable.destroyed (h : Joinable pool)
    (hstuck : ∀ action : Action Task, action.closing = true → step pool action = none) :
    pool.main = .destroyed ∧ ∀ pc ∈ pool.threads, pc = .exited := by
  have hsettled : Settled pool := fun action haction => by
    refine hstuck action ?_
    cases action <;> first | rfl | cases haction
  have hholds : pool.main.holds = false := by
    have hroused := h.roused
    cases hpc : pool.main <;> simp_all [MainPc.roused, MainPc.holds]
  have hexited : ∀ pc ∈ pool.threads, pc = .exited := by
    intro pc hpc
    refine (hsettled.threads h.healthy hholds hpc).resolve_left ?_
    rintro rfl
    exact List.countP_eq_zero.mp (h.healthy.sound.roused h.roused) _ hpc rfl
  refine ⟨?_, hexited⟩
  have hnone := hstuck (.main true) rfl
  have hroused := h.roused
  simp only [step, Option.map_eq_none_iff] at hnone
  generalize hpc : pool.main = pc at hnone hroused
  cases pc with
  | joining i =>
      simp only [ownerStep] at hnone
      split at hnone
      · next hi =>
          have hget := List.getElem?_eq_getElem (l := pool.threads) (h.all_created ▸ hi)
          rw [hget, hexited _ (List.getElem_mem _)] at hnone
          cases hnone
      · cases hnone
  | destroyed => rfl
  | rebroadcasting i => cases hnone
  | _ => cases hroused

-- `destroy_threadpool` returns: once it has broadcast, the threads and the owner come to a stop after
-- so many steps at most, in whatever way they go on, and they stop only when every thread has ended
-- and was joined.
theorem destroy_returns {poolSize : Nat} {taskSizeLimit : Int} {pool final : ThreadPool Task}
    {history later : List (Action Task × Mark Task)}
    (run : Run step free (created poolSize taskSizeLimit) history pool)
    (hmain : pool.main.roused = true) (hall : pool.threads.length = pool.poolSize)
    (rest : Run step Closing pool later final) :
    later.length ≤ pool.closingWork ∧
      ((∀ action : Action Task, action.closing = true → step final action = none) →
        final.main = .destroyed ∧ ∀ pc ∈ final.threads, pc = .exited) := by
  have hpool := healthy_of_run (healthy_created poolSize taskSizeLimit) run
  have hjoinable : Joinable pool := ⟨hpool, hmain, hall⟩
  refine ⟨?_, fun hstuck => ?_⟩
  · have hle := rest.length_le closingWork Joinable hjoinable
      fun _ _ action _ _ h (haction : action.closing = true) hs => h.next haction hs
    omega
  · have hfinal := rest.invariant (fun _ state => Joinable state) hjoinable
      fun _ _ action _ _ h (haction : action.closing = true) hs => (h.next haction hs).1
    exact hfinal.destroyed hstuck

theorem closing_of_closes (history : List (Action Nat × Mark Nat)) (pool : ThreadPool Nat)
    (action : Action Nat) (h : action.closing = true) : Closing history pool action := h

-- The one thread slept when the broadcast came.
def roused : ThreadPool Nat where
  poolSize := 1
  poolState := STOPPED
  threads := [.woken]
  main := .joining 0

theorem destroy_returns_asleep : ∃ final : ThreadPool Nat, final.main = .destroyed ∧
    ∀ pc ∈ final.threads, pc = .exited := by
  obtain ⟨history, pool, run, htest⟩ := exists_run_of_ends step free (created 1 (-1) : ThreadPool Nat)
    [.main true, .main true, .main true, .worker 0, .worker 0, .main true, .main true, .main true,
      .main true]
    (fun _ pool => decide (pool = roused)) (guarded_free _ _ _) (by decide +kernel)
  obtain rfl := of_decide_eq_true htest
  obtain ⟨later, final, rest, htest⟩ := exists_run_of_ends step Closing roused
    [.worker 0, .worker 0, .main true, .main true, .main true]
    (fun _ final => decide (final = { roused with threads := [.exited], main := .destroyed }))
    (guarded_of_passes (fun _ _ action => action.closing) closing_of_closes (by decide +kernel))
    (by decide +kernel)
  obtain ⟨-, hreturned⟩ := destroy_returns run rfl rfl rest
  refine ⟨final, hreturned fun action haction => ?_⟩
  obtain rfl := of_decide_eq_true htest
  cases action with
  | adder i k => rfl
  | worker j => cases j <;> rfl
  | main ok => rfl
  | _ => cases haction

end Stopped

end ThreadPool

end VideoAdapter.Sak

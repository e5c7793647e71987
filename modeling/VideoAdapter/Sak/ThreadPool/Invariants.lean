import VideoAdapter.Sak.ThreadPool.Moves

namespace VideoAdapter.Sak

open Lib

variable {Task : Type*}

-- The owner has stored `STOPPED`.
def MainPc.stopped : MainPc → Bool
  | .broadcasting => true
  | .joining _ => true
  | .rebroadcasting _ => true
  | .destroyed => true
  | _ => false

-- It has also woken the threads.
def MainPc.roused : MainPc → Bool
  | .joining _ => true
  | .rebroadcasting _ => true
  | .destroyed => true
  | _ => false

namespace ThreadPool

-- Who is inside the mutex.
def holders (pool : ThreadPool Task) : Nat :=
  pool.threads.countP WorkerPc.holds + pool.adders.countP AdderPc.holds +
    if pool.main.holds then 1 else 0

-- The mutex has one thread inside or none, `STOPPED` is the owner's doing, and after its broadcast
-- nobody waits.
structure Sound (pool : ThreadPool Task) : Prop where
  holders_eq : pool.holders = if pool.locked then 1 else 0
  created_le : pool.threads.length ≤ pool.poolSize
  stopped_iff : pool.poolState = STOPPED ↔ pool.main.stopped = true
  roused : pool.main.roused = true → pool.threads.countP WorkerPc.waits = 0

-- A thread about to take the front of the queue has seen that there is one.
def Supplied (pool : ThreadPool Task) : Prop :=
  0 < pool.threads.countP WorkerPc.takes → pool.tasks ≠ [] ∧ pool.poolState ≠ STOPPED

-- The limit is tested before the task is there.
def Bounded (pool : ThreadPool Task) : Prop :=
  0 < pool.taskSizeLimit →
    (pool.tasks.length + pool.adders.countP AdderPc.pushes : Int) ≤ pool.taskSizeLimit + 1

-- While a thread sleeps, the tasks in the queue have threads that are on their way to them, or
-- callers that will wake one.
def Awake (pool : ThreadPool Task) : Prop :=
  pool.poolState ≠ STOPPED → 0 < pool.threads.countP WorkerPc.waits →
    pool.tasks.length ≤ pool.adders.countP AdderPc.signals + pool.threads.countP WorkerPc.comes

-- No thread has left a pool that is not stopped.
structure Manned (pool : ThreadPool Task) : Prop where
  fresh : pool.main = .idle → pool.threads = []
  exited : .exited ∈ pool.threads → pool.poolState = STOPPED

theorem countP_takes_le (threads : List (WorkerPc Task)) :
    threads.countP WorkerPc.takes ≤ threads.countP WorkerPc.holds := by
  refine List.countP_mono_left fun pc _ htakes => ?_
  cases pc <;> simp_all [WorkerPc.takes, WorkerPc.holds]

theorem countP_pushes_le (adders : List (AdderPc Task)) :
    adders.countP AdderPc.pushes ≤ adders.countP AdderPc.holds := by
  refine List.countP_mono_left fun pc _ hpushes => ?_
  cases pc <;> simp_all [AdderPc.pushes, AdderPc.holds]

-- A broadcast leaves nobody waiting, and everybody else where they are.
theorem countP_waits_wake (threads : List (WorkerPc Task)) :
    (threads.map WorkerPc.wake).countP WorkerPc.waits = 0 := by
  rw [List.countP_map, List.countP_eq_zero]
  intro pc _
  cases pc <;> simp [WorkerPc.wake, WorkerPc.waits]

theorem countP_wake (p : WorkerPc Task → Bool) (hp : ∀ pc : WorkerPc Task, p pc.wake = p pc)
    (threads : List (WorkerPc Task)) : (threads.map WorkerPc.wake).countP p = threads.countP p := by
  rw [List.countP_map]
  exact List.countP_congr fun pc _ => by rw [Function.comp_apply, hp]

theorem holds_wake (pc : WorkerPc Task) : pc.wake.holds = pc.holds := by cases pc <;> rfl

theorem takes_wake (pc : WorkerPc Task) : pc.wake.takes = pc.takes := by cases pc <;> rfl

theorem hand_wake (pc : WorkerPc Task) : pc.wake.hand = pc.hand := by cases pc <;> rfl

end ThreadPool

section Move

open ThreadPool

variable {pool after : ThreadPool Task} {mark : Mark Task}

-- A mutex is entered when it is free, left by the one inside, or not touched.
inductive LockChange (before after : Bool) (held holds : Bool) : Prop
  | enter (hbefore : before = false) (hafter : after = true) (hheld : held = false)
      (hholds : holds = true)
  | leave (hafter : after = false) (hheld : held = true) (hholds : holds = false)
  | keep (hafter : after = before) (hholds : holds = held)

theorem WorkerMove.lockChange {pc next : WorkerPc Task} {tasks : List Task} {locked : Bool}
    (move : WorkerMove pool pc tasks locked next mark) :
    LockChange pool.locked locked pc.holds next.holds := by
  cases move with
  | enter hpc hfree => rcases hpc with rfl | rfl <;> exact .enter hfree rfl rfl rfl
  | wait | exit | pop => exact .leave rfl rfl rfl
  | see | finish | wake => exact .keep rfl rfl

theorem AdderMove.lockChange {pc next : AdderPc Task} {tasks : List Task} {locked : Bool}
    (move : AdderMove pool pc tasks locked next mark) :
    LockChange pool.locked locked pc.holds next.holds := by
  cases move with
  | test hfree => exact .enter hfree rfl rfl rfl
  | reject | push => exact .leave rfl rfl rfl
  | accept | unheard => exact .keep rfl rfl

theorem OwnerMove.lockChange {pc main : MainPc} {poolState : Int} {locked : Bool}
    {threads : List (WorkerPc Task)} (move : OwnerMove pool pc poolState locked threads main) :
    LockChange pool.locked locked pc.holds main.holds := by
  cases move with
  | lock hfree => exact .enter hfree rfl rfl rfl
  | store => exact .leave rfl rfl rfl
  | destroy hpc => rcases hpc with rfl | rfl <;> exact .keep rfl rfl
  | _ => exact .keep rfl rfl

-- The count of those inside, when one thread changes its place.
theorem LockChange.count {before after held holds : Bool} (change : LockChange before after held holds)
    {inside inside' : Nat} (hcount : inside = if before then 1 else 0)
    (hmove : inside' + (if held then 1 else 0) = inside + if holds then 1 else 0) :
    inside' = if after then 1 else 0 := by
  cases change with
  | enter hbefore hafter hheld hholds =>
      simp only [hbefore, hafter, hheld, hholds, Bool.false_eq_true, if_false, if_true] at *
      omega
  | leave hafter hheld hholds =>
      simp only [hafter, hheld, hholds, Bool.false_eq_true, if_false, if_true] at *
      split at hcount <;> omega
  | keep hafter hholds =>
      rw [hholds] at hmove
      rw [hafter]
      omega

-- Threads begin to wait only while the pool is not stopped.
theorem WorkerMove.waits {pc next : WorkerPc Task} {tasks : List Task} {locked : Bool}
    (move : WorkerMove pool pc tasks locked next mark) (hnext : next.waits = true) :
    pool.poolState ≠ STOPPED := by
  cases move with
  | wait hstate => exact hstate
  | _ => cases hnext

theorem OwnerMove.stopped {pc main : MainPc} {poolState : Int} {locked : Bool}
    {threads : List (WorkerPc Task)} (move : OwnerMove pool pc poolState locked threads main)
    (h : pool.poolState = STOPPED ↔ pc.stopped = true) :
    (poolState = STOPPED ↔ main.stopped = true) := by
  cases move with
  | start => simp [MainPc.stopped, STARTED, STOPPED]
  | store => simp [MainPc.stopped]
  | destroy hpc => rcases hpc with rfl | rfl <;> exact h
  | _ => exact h

theorem OwnerMove.roused {pc main : MainPc} {poolState : Int} {locked : Bool}
    {threads : List (WorkerPc Task)} (move : OwnerMove pool pc poolState locked threads main)
    (h : pc.roused = true → pool.threads.countP WorkerPc.waits = 0) (hmain : main.roused = true) :
    threads.countP WorkerPc.waits = 0 := by
  cases move with
  | broadcast | rebroadcast => exact countP_waits_wake _
  | joined | last => exact h rfl
  | _ => cases hmain

theorem OwnerMove.created {pc main : MainPc} {poolState : Int} {locked : Bool}
    {threads : List (WorkerPc Task)} (move : OwnerMove pool pc poolState locked threads main)
    (h : pool.threads.length ≤ pool.poolSize) : threads.length ≤ pool.poolSize := by
  cases move with
  | create hmore => rw [List.length_append, List.length_singleton]; omega
  | broadcast | rebroadcast => rw [List.length_map]; exact h
  | _ => exact h

theorem OwnerMove.holds {pc main : MainPc} {poolState : Int} {locked : Bool}
    {threads : List (WorkerPc Task)} (move : OwnerMove pool pc poolState locked threads main) :
    threads.countP WorkerPc.holds = pool.threads.countP WorkerPc.holds := by
  cases move with
  | create => rw [countP_concat]; rfl
  | broadcast | rebroadcast => exact countP_wake _ holds_wake _
  | _ => rfl

theorem MainPc.stopped_of_roused {pc : MainPc} (h : pc.roused = true) : pc.stopped = true := by
  cases pc <;> first | rfl | cases h

theorem ThreadPool.Sound.move (h : Sound pool) (move : Move pool mark after) : Sound after := by
  obtain ⟨hholders, hcreated, hstopped, hroused⟩ := h
  simp only [holders] at hholders
  cases move with
  | arrive task =>
      refine ⟨?_, hcreated, hstopped, hroused⟩
      rw [← hholders, holders, countP_concat]
      rfl
  | @worker j pc next tasks locked _ hj hmove =>
      have hholds := countP_move WorkerPc.holds hj next
      have hwaits := countP_move WorkerPc.waits hj next
      refine ⟨?_, by simpa using hcreated, hstopped, fun hmain => ?_⟩
      · refine hmove.lockChange.count hholders ?_
        simp only [holders]
        omega
      · -- after the broadcast the pool is stopped, and nobody goes to sleep
        have hnone := hroused hmain
        have hnext : next.waits = false := by
          by_contra hne
          have hstate := hmove.waits (eq_true_of_ne_false hne)
          exact hstate (hstopped.mpr (MainPc.stopped_of_roused hmain))
        simp only [hnext, Bool.false_eq_true, if_false] at hwaits
        dsimp only
        omega
  | @adder i pc next tasks locked _ hi hmove =>
      have hholds := countP_move AdderPc.holds hi next
      refine ⟨?_, hcreated, hstopped, hroused⟩
      refine hmove.lockChange.count hholders ?_
      simp only [holders]
      omega
  | @signal i k hi hk =>
      have hholds := countP_move AdderPc.holds hi (.returned 0)
      have hholds' := countP_move WorkerPc.holds hk .woken
      have hwaits := countP_move WorkerPc.waits hk .woken
      simp only [AdderPc.holds, WorkerPc.holds, WorkerPc.waits, Bool.false_eq_true, if_false,
        if_true] at hholds hholds' hwaits
      refine ⟨?_, by simpa using hcreated, hstopped, fun hmain => ?_⟩
      · simp only [holders]
        omega
      · have hnone := hroused hmain
        omega
  | owner hmove =>
      refine ⟨?_, hmove.created hcreated, hmove.stopped hstopped, hmove.roused hroused⟩
      have hsame := hmove.holds
      refine hmove.lockChange.count hholders ?_
      simp only [holders]
      omega

namespace ThreadPool

-- One thread inside the mutex is the only one.
theorem Sound.holders_le (h : Sound pool) : pool.holders ≤ 1 := by
  rw [h.holders_eq]
  split <;> omega

theorem Sound.no_pusher_beside_adder (h : Sound pool) {i : Nat} {task : Task}
    (hi : pool.adders[i]? = some (.testing task)) : pool.adders.countP AdderPc.pushes = 0 := by
  have hle := h.holders_le
  -- the caller at the test would be a second one inside
  have hhold := countP_move AdderPc.holds hi (.pushing task)
  have hpush := countP_move AdderPc.pushes hi (.locking task)
  have hafter := countP_pushes_le (pool.adders.set i (.locking task))
  have hlock := countP_move AdderPc.holds hi (.locking task)
  simp only [holders] at hle
  simp only [AdderPc.holds, AdderPc.pushes, Bool.false_eq_true, if_false, if_true] at *
  omega

theorem Supplied.move (hsound : Sound pool) (h : Supplied pool) (move : Move pool mark after) :
    Supplied after := by
  intro htakes
  cases move with
  | arrive task => exact h htakes
  | @worker j pc next tasks locked _ hj hmove =>
      have htake := countP_move WorkerPc.takes hj next
      have hle := countP_takes_le (pool.threads.set j next)
      have hhold := countP_move WorkerPc.holds hj next
      have hone := hsound.holders_le
      simp only [holders] at hone
      dsimp only at htakes ⊢
      cases hmove with
      | enter hpc =>
          apply h
          rcases hpc with rfl | rfl <;>
            simp only [WorkerPc.takes, Bool.false_eq_true, if_false] at htake <;> omega
      | see hstate htasks => exact ⟨htasks, hstate⟩
      | pop =>
          -- the one inside has left, so nobody is about to take
          simp only [WorkerPc.holds, Bool.false_eq_true, if_false, if_true] at hhold
          omega
      | _ =>
          apply h
          simp only [WorkerPc.takes, Bool.false_eq_true, if_false] at htake
          omega
  | adder hi hmove =>
      obtain ⟨htasks, hstate⟩ := h htakes
      refine ⟨?_, hstate⟩
      cases hmove with
      | push => exact List.append_ne_nil_of_right_ne_nil _ (List.cons_ne_nil _ _)
      | _ => exact htasks
  | @signal i k hi hk =>
      have htake := countP_move WorkerPc.takes hk .woken
      apply h
      simp only [WorkerPc.takes, Bool.false_eq_true, if_false] at htake
      dsimp only at htakes
      omega
  | owner hmove =>
      have hone := hsound.holders_le
      have hle := countP_takes_le pool.threads
      simp only [holders] at hone
      dsimp only at htakes ⊢
      generalize hpc : pool.main = pc at hmove hone
      cases hmove with
      | start => exact ⟨(h htakes).1, by decide⟩
      | store =>
          simp only [MainPc.holds, if_true] at hone
          omega
      | create =>
          rw [countP_concat] at htakes
          exact h htakes
      | broadcast | rebroadcast =>
          rw [countP_wake _ takes_wake] at htakes
          exact h htakes
      | _ => exact h htakes

theorem Bounded.move (hsound : Sound pool) (h : Bounded pool) (move : Move pool mark after) :
    Bounded after := by
  intro hlimit
  cases move with
  | arrive task =>
      have hpush := @countP_concat _ pool.adders AdderPc.pushes (.locking task)
      have hbound := h hlimit
      simp only [AdderPc.pushes, Bool.false_eq_true, if_false] at hpush
      dsimp only
      omega
  | worker hj hmove =>
      have hbound := h hlimit
      cases hmove with
      | pop htasks =>
          rw [htasks, List.length_cons] at hbound
          dsimp only
          omega
      | _ => exact hbound
  | @adder i pc next tasks locked _ hi hmove =>
      have hbound := h hlimit
      have hpush := countP_move AdderPc.pushes hi next
      dsimp only at hlimit ⊢
      cases hmove with
      | @accept task hroom =>
          have hnone := hsound.no_pusher_beside_adder hi
          simp only [AdderPc.pushes, Bool.false_eq_true, if_false, if_true] at hpush
          omega
      | push =>
          simp only [AdderPc.pushes, Bool.false_eq_true, if_false, if_true] at hpush
          rw [List.length_append, List.length_singleton]
          omega
      | _ =>
          simp only [AdderPc.pushes, Bool.false_eq_true, if_false] at hpush
          omega
  | @signal i k hi hk =>
      have hbound := h hlimit
      have hpush := countP_move AdderPc.pushes hi (.returned 0)
      simp only [AdderPc.pushes, Bool.false_eq_true, if_false] at hpush
      dsimp only at hlimit ⊢
      omega
  | owner hmove => exact h hlimit

theorem Awake.move (hsound : Sound pool) (h : Awake pool) (move : Move pool mark after) :
    Awake after := by
  intro hstate hwaits
  cases move with
  | arrive task =>
      have hsignal := @countP_concat _ pool.adders AdderPc.signals (.locking task)
      have hlen := h hstate hwaits
      dsimp only
      omega
  | @worker j pc next tasks locked _ hj hmove =>
      have hwait := countP_move WorkerPc.waits hj next
      have hcome := countP_move WorkerPc.comes hj next
      have hlen := h hstate
      dsimp only at hwaits ⊢
      cases hmove with
      | enter hpc =>
          rcases hpc with rfl | rfl <;>
            simp only [WorkerPc.waits, WorkerPc.comes, Bool.false_eq_true, if_false, if_true]
              at hwait hcome <;> omega
      | wait _ hempty =>
          -- the only way to sleep is to have found the queue empty
          rw [hempty, List.length_nil]
          exact Nat.zero_le _
      | exit hstopped => exact absurd hstopped hstate
      | pop htasks =>
          rw [htasks, List.length_cons] at hlen
          simp only [WorkerPc.waits, WorkerPc.comes, Bool.false_eq_true, if_false, if_true]
            at hwait hcome
          omega
      | _ =>
          simp only [WorkerPc.waits, WorkerPc.comes, Bool.false_eq_true, if_false, if_true]
            at hwait hcome
          omega
  | @adder i pc next tasks locked _ hi hmove =>
      have hsignal := countP_move AdderPc.signals hi next
      have hlen := h hstate hwaits
      dsimp only at hwaits ⊢
      cases hmove with
      | push =>
          simp only [AdderPc.signals, Bool.false_eq_true, if_false, if_true] at hsignal
          rw [List.length_append, List.length_singleton]
          omega
      | unheard hnone => omega
      | _ =>
          simp only [AdderPc.signals, Bool.false_eq_true, if_false] at hsignal
          omega
  | @signal i k hi hk =>
      have hsignal := countP_move AdderPc.signals hi (.returned 0)
      have hcome := countP_move WorkerPc.comes hk .woken
      have hlen := h hstate (countP_pos_of_getElem? hk rfl)
      simp only [AdderPc.signals, WorkerPc.comes, Bool.false_eq_true, if_false, if_true]
        at hsignal hcome
      dsimp only
      omega
  | owner hmove =>
      dsimp only at hstate hwaits ⊢
      generalize hpc : pool.main = pc at hmove
      cases hmove with
      | start =>
          refine h (fun hstopped => ?_) hwaits
          have hmain := hsound.stopped_iff.mp hstopped
          rw [hpc] at hmain
          cases hmain
      | store => exact absurd rfl hstate
      | create =>
          rw [countP_concat] at hwaits ⊢
          have hlen := h hstate hwaits
          omega
      | broadcast | rebroadcast =>
          rw [countP_waits_wake] at hwaits
          omega
      | _ => exact h hstate hwaits

theorem exits_only_stopped {pc next : WorkerPc Task} {tasks : List Task} {locked : Bool}
    (move : WorkerMove pool pc tasks locked next mark) (hnext : next = .exited) :
    pool.poolState = STOPPED := by
  cases move with
  | exit hstate => exact hstate
  | _ => cases hnext

theorem Manned.move (h : Manned pool) (move : Move pool mark after) : Manned after := by
  cases move with
  | arrive task => exact ⟨h.fresh, h.exited⟩
  | worker hj hmove =>
      refine ⟨fun hmain => ?_, fun hmem => ?_⟩
      · rw [h.fresh hmain] at hj
        simp at hj
      · rcases List.mem_or_eq_of_mem_set hmem with hmem | heq
        · exact h.exited hmem
        · have hstate := exits_only_stopped hmove heq.symm
          exact hstate
  | adder hi hmove => exact ⟨h.fresh, h.exited⟩
  | signal hi hk =>
      refine ⟨fun hmain => ?_, fun hmem => ?_⟩
      · rw [h.fresh hmain] at hk
        simp at hk
      · rcases List.mem_or_eq_of_mem_set hmem with hmem | heq
        · exact h.exited hmem
        · cases heq
  | owner hmove =>
      generalize hpc : pool.main = pc at hmove
      cases hmove with
      | start =>
          refine ⟨nofun, fun hmem => ?_⟩
          rw [h.fresh hpc] at hmem
          cases hmem
      | create =>
          refine ⟨nofun, fun hmem => h.exited ?_⟩
          simpa using hmem
      | store => exact ⟨nofun, fun _ => rfl⟩
      | broadcast | rebroadcast =>
          refine ⟨nofun, fun hmem => h.exited ?_⟩
          obtain ⟨pc, hmem, heq⟩ := List.mem_map.mp hmem
          cases pc <;> first | exact hmem | cases heq
      | _ => exact ⟨nofun, h.exited⟩

end ThreadPool

end Move

end VideoAdapter.Sak

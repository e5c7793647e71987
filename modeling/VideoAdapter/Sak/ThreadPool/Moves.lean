import VideoAdapter.Sak.ThreadPool

namespace VideoAdapter.Sak

open Lib

variable {Task : Type*}

-- What a thread of the pool can do at the place where it stands: the queue and the mutex after it,
-- and its next place.
inductive WorkerMove (pool : ThreadPool Task) :
    WorkerPc Task → List Task → Bool → WorkerPc Task → Mark Task → Prop
  | enter {pc : WorkerPc Task} (hpc : pc = .locking ∨ pc = .woken) (hfree : pool.locked = false) :
      WorkerMove pool pc pool.tasks true .checking .quiet
  | wait (hstate : pool.poolState ≠ STOPPED) (hempty : pool.tasks = []) :
      WorkerMove pool .checking pool.tasks false .waiting .quiet
  | exit (hstate : pool.poolState = STOPPED) :
      WorkerMove pool .checking pool.tasks false .exited .quiet
  | see (hstate : pool.poolState ≠ STOPPED) (htasks : pool.tasks ≠ []) :
      WorkerMove pool .checking pool.tasks pool.locked .taking .quiet
  | pop {task : Task} {rest : List Task} (htasks : pool.tasks = task :: rest) :
      WorkerMove pool .taking rest false (.running task) (.popped task)
  | finish {task : Task} :
      WorkerMove pool (.running task) pool.tasks pool.locked .locking (.finished task)
  | wake : WorkerMove pool .waiting pool.tasks pool.locked .woken .quiet

-- The same for a caller of `add_task`.
inductive AdderMove (pool : ThreadPool Task) :
    AdderPc Task → List Task → Bool → AdderPc Task → Mark Task → Prop
  | test {task : Task} (hfree : pool.locked = false) :
      AdderMove pool (.locking task) pool.tasks true (.testing task) .quiet
  | reject {task : Task}
      (hfull : pool.taskSizeLimit > 0 ∧ (pool.tasks.length : Int) > pool.taskSizeLimit) :
      AdderMove pool (.testing task) pool.tasks false (.returned (-1)) (.rejected task)
  | accept {task : Task}
      (hroom : ¬ (pool.taskSizeLimit > 0 ∧ (pool.tasks.length : Int) > pool.taskSizeLimit)) :
      AdderMove pool (.testing task) pool.tasks pool.locked (.pushing task) .quiet
  | push {task : Task} :
      AdderMove pool (.pushing task) (pool.tasks ++ [task]) false .signalling (.pushed task)
  | unheard (hnone : pool.threads.countP WorkerPc.waits = 0) :
      AdderMove pool .signalling pool.tasks pool.locked (.returned 0) .quiet

-- The same for the owner, who also creates and wakes the threads.
inductive OwnerMove (pool : ThreadPool Task) :
    MainPc → Int → Bool → List (WorkerPc Task) → MainPc → Prop
  | empty (hsize : pool.poolSize = 0) :
      OwnerMove pool .idle pool.poolState pool.locked pool.threads .failed
  | start (hsize : pool.poolSize ≠ 0) :
      OwnerMove pool .idle STARTED pool.locked pool.threads .creating
  | create (hmore : pool.threads.length < pool.poolSize) :
      OwnerMove pool .creating pool.poolState pool.locked (pool.threads ++ [.locking]) .creating
  | fail (hmore : pool.threads.length < pool.poolSize) :
      OwnerMove pool .creating pool.poolState pool.locked pool.threads .failed
  | started (hall : pool.poolSize ≤ pool.threads.length) :
      OwnerMove pool .creating pool.poolState pool.locked pool.threads .started
  | destroy {pc : MainPc} (hpc : pc = .started ∨ pc = .failed) :
      OwnerMove pool pc pool.poolState pool.locked pool.threads .locking
  | lock (hfree : pool.locked = false) :
      OwnerMove pool .locking pool.poolState true pool.threads .storing
  | store : OwnerMove pool .storing STOPPED false pool.threads .broadcasting
  | broadcast :
      OwnerMove pool .broadcasting pool.poolState pool.locked (pool.threads.map WorkerPc.wake)
        (.joining 0)
  | joined {i : Nat} (hi : i < pool.poolSize) (hexited : pool.threads[i]? = some .exited) :
      OwnerMove pool (.joining i) pool.poolState pool.locked pool.threads (.rebroadcasting i)
  | rebroadcast {i : Nat} :
      OwnerMove pool (.rebroadcasting i) pool.poolState pool.locked
        (pool.threads.map WorkerPc.wake) (.joining (i + 1))
  | last {i : Nat} (hi : pool.poolSize ≤ i) :
      OwnerMove pool (.joining i) pool.poolState pool.locked pool.threads .destroyed

inductive Move (pool : ThreadPool Task) : Mark Task → ThreadPool Task → Prop
  | arrive (task : Task) :
      Move pool .quiet { pool with adders := pool.adders ++ [.locking task] }
  | worker {j : Nat} {pc next : WorkerPc Task} {tasks : List Task} {locked : Bool}
      {mark : Mark Task} (hj : pool.threads[j]? = some pc)
      (move : WorkerMove pool pc tasks locked next mark) :
      Move pool mark { pool with
        tasks := tasks, locked := locked, threads := pool.threads.set j next }
  | adder {i : Nat} {pc next : AdderPc Task} {tasks : List Task} {locked : Bool}
      {mark : Mark Task} (hi : pool.adders[i]? = some pc)
      (move : AdderMove pool pc tasks locked next mark) :
      Move pool mark { pool with
        tasks := tasks, locked := locked, adders := pool.adders.set i next }
  | signal {i k : Nat} (hi : pool.adders[i]? = some .signalling)
      (hk : pool.threads[k]? = some .waiting) :
      Move pool .quiet { pool with
        threads := pool.threads.set k .woken, adders := pool.adders.set i (.returned 0) }
  | owner {poolState : Int} {locked : Bool} {threads : List (WorkerPc Task)} {main : MainPc}
      (move : OwnerMove pool pool.main poolState locked threads main) :
      Move pool .quiet { pool with
        poolState := poolState, locked := locked, threads := threads, main := main }

namespace ThreadPool

variable {pool after : ThreadPool Task} {mark : Mark Task}

theorem executeThread_move {j : Nat} {pc : WorkerPc Task}
    (hs : pool.executeThread j pc = some (after, mark)) :
    pc ≠ .waiting ∧ ∃ tasks locked next, WorkerMove pool pc tasks locked next mark ∧
      after = { pool with
        tasks := tasks, locked := locked, threads := pool.threads.set j next } := by
  cases pc with
  | locking =>
      simp only [executeThread] at hs
      split at hs
      · cases hs
      · next hfree =>
          cases hs
          exact ⟨nofun, _, _, _, .enter (.inl rfl) (Bool.eq_false_iff.mpr hfree), rfl⟩
  | woken =>
      simp only [executeThread] at hs
      split at hs
      · cases hs
      · next hfree =>
          cases hs
          exact ⟨nofun, _, _, _, .enter (.inr rfl) (Bool.eq_false_iff.mpr hfree), rfl⟩
  | checking =>
      simp only [executeThread] at hs
      split at hs
      · next h =>
          cases hs
          exact ⟨nofun, _, _, _, .wait h.1 h.2, rfl⟩
      · next h =>
          split at hs
          · next hstate =>
              cases hs
              exact ⟨nofun, _, _, _, .exit hstate, rfl⟩
          · next hstate =>
              cases hs
              exact ⟨nofun, _, _, _, .see hstate fun hempty => h ⟨hstate, hempty⟩, rfl⟩
  | taking =>
      simp only [executeThread] at hs
      split at hs
      · cases hs
      · next htasks =>
          cases hs
          exact ⟨nofun, _, _, _, .pop htasks, rfl⟩
  | running task =>
      cases hs
      exact ⟨nofun, _, _, _, .finish, rfl⟩
  | waiting => cases hs
  | exited => cases hs

theorem any_waits_eq_false (h : ¬ pool.threads.any WorkerPc.waits = true) :
    pool.threads.countP WorkerPc.waits = 0 := by
  rw [List.countP_eq_zero]
  intro pc hpc hwaits
  exact h (List.any_eq_true.mpr ⟨pc, hpc, hwaits⟩)

theorem addTask_move {i k : Nat} {pc : AdderPc Task}
    (hs : pool.addTask i k pc = some (after, mark)) :
    (∃ tasks locked next, AdderMove pool pc tasks locked next mark ∧
      after = { pool with tasks := tasks, locked := locked, adders := pool.adders.set i next }) ∨
      pc = .signalling ∧ mark = .quiet ∧ pool.threads[k]? = some .waiting ∧
        after = { pool with
          threads := pool.threads.set k .woken, adders := pool.adders.set i (.returned 0) } := by
  cases pc with
  | locking task =>
      simp only [addTask] at hs
      split at hs
      · cases hs
      · next hfree =>
          cases hs
          exact .inl ⟨_, _, _, .test (Bool.eq_false_iff.mpr hfree), rfl⟩
  | testing task =>
      simp only [addTask] at hs
      split at hs
      · next hfull =>
          cases hs
          exact .inl ⟨_, _, _, .reject hfull, rfl⟩
      · next hroom =>
          cases hs
          exact .inl ⟨_, _, _, .accept hroom, rfl⟩
  | pushing task =>
      cases hs
      exact .inl ⟨_, _, _, .push, rfl⟩
  | signalling =>
      simp only [addTask] at hs
      split at hs
      · split at hs
        · next hk =>
            cases hs
            exact .inr ⟨rfl, rfl, hk, rfl⟩
        · cases hs
      · next hnone =>
          cases hs
          exact .inl ⟨_, _, _, .unheard (any_waits_eq_false hnone), rfl⟩
  | returned ret => cases hs

theorem ownerStep_move {ok : Bool} {pc : MainPc} (hs : pool.ownerStep ok pc = some after) :
    ∃ poolState locked threads main, OwnerMove pool pc poolState locked threads main ∧
      after = { pool with
        poolState := poolState, locked := locked, threads := threads, main := main } := by
  cases pc with
  | idle =>
      simp only [ownerStep] at hs
      split at hs
      · next hsize => exact ⟨_, _, _, _, .empty hsize, (Option.some.inj hs).symm⟩
      · next hsize => exact ⟨_, _, _, _, .start hsize, (Option.some.inj hs).symm⟩
  | creating =>
      simp only [ownerStep] at hs
      split at hs
      · next hmore =>
          split at hs
          · exact ⟨_, _, _, _, .create hmore, (Option.some.inj hs).symm⟩
          · exact ⟨_, _, _, _, .fail hmore, (Option.some.inj hs).symm⟩
      · next hall => exact ⟨_, _, _, _, .started (Nat.le_of_not_lt hall), (Option.some.inj hs).symm⟩
  | started => exact ⟨_, _, _, _, .destroy (.inl rfl), (Option.some.inj hs).symm⟩
  | failed => exact ⟨_, _, _, _, .destroy (.inr rfl), (Option.some.inj hs).symm⟩
  | locking =>
      simp only [ownerStep] at hs
      split at hs
      · cases hs
      · next hfree =>
          exact ⟨_, _, _, _, .lock (Bool.eq_false_iff.mpr hfree), (Option.some.inj hs).symm⟩
  | storing => exact ⟨_, _, _, _, .store, (Option.some.inj hs).symm⟩
  | broadcasting => exact ⟨_, _, _, _, .broadcast, (Option.some.inj hs).symm⟩
  | joining i =>
      simp only [ownerStep] at hs
      split at hs
      · next hi =>
          split at hs
          · next hexited => exact ⟨_, _, _, _, .joined hi hexited, (Option.some.inj hs).symm⟩
          · cases hs
      · next hi => exact ⟨_, _, _, _, .last (Nat.le_of_not_lt hi), (Option.some.inj hs).symm⟩
  | rebroadcasting i => exact ⟨_, _, _, _, .rebroadcast, (Option.some.inj hs).symm⟩
  | destroyed => cases hs

-- All that one step can do.
theorem step_move {action : Action Task} (hs : step pool action = some (after, mark)) :
    Move pool mark after := by
  cases action with
  | addTask task =>
      cases hs
      exact .arrive task
  | adder i k =>
      obtain ⟨pc, hi, hpc⟩ := Option.bind_eq_some_iff.mp hs
      rcases addTask_move hpc with ⟨_, _, _, hmove, rfl⟩ | ⟨rfl, rfl, hk, rfl⟩
      · exact .adder hi hmove
      · exact .signal hi hk
  | worker j =>
      obtain ⟨pc, hj, hpc⟩ := Option.bind_eq_some_iff.mp hs
      obtain ⟨-, _, _, _, hmove, rfl⟩ := executeThread_move hpc
      exact .worker hj hmove
  | spurious j =>
      simp only [step] at hs
      split at hs
      · next hj =>
          cases hs
          exact .worker hj .wake
      · cases hs
  | main ok =>
      obtain ⟨next, hnext, heq⟩ := Option.map_eq_some_iff.mp hs
      cases heq
      obtain ⟨_, _, _, _, hmove, rfl⟩ := ownerStep_move hnext
      exact .owner hmove

end ThreadPool

end VideoAdapter.Sak

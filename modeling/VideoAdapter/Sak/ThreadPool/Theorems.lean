import VideoAdapter.Lib.TaskQueue
import VideoAdapter.Sak.ThreadPool.Invariants

namespace VideoAdapter.Sak

open Lib

variable {Task : Type*}

namespace Mark

def pushed? : Mark Task → Option Task
  | .pushed task => some task
  | _ => none

def popped? : Mark Task → Option Task
  | .popped task => some task
  | _ => none

def finished? : Mark Task → Option Task
  | .finished task => some task
  | _ => none

end Mark

namespace ThreadPool

-- A pool as its constructor and the two setters leave it.
def created (poolSize : Nat) (taskSizeLimit : Int) : ThreadPool Task where
  poolSize := poolSize
  taskSizeLimit := taskSizeLimit

-- The tasks of a history that one kind of mark tells of, oldest first.
def marked (which : Mark Task → Option Task) (history : List (Action Task × Mark Task)) :
    List Task :=
  history.reverse.filterMap fun entry => which entry.2

theorem marked_cons (which : Mark Task → Option Task) (action : Action Task) (mark : Mark Task)
    (history : List (Action Task × Mark Task)) :
    marked which ((action, mark) :: history) = marked which history ++ (which mark).toList := by
  rw [marked, List.reverse_cons, List.filterMap_append, marked]
  cases h : which mark <;> simp [h]

-- The tasks that threads are running now.
def inHand (pool : ThreadPool Task) : List Task := pool.threads.filterMap WorkerPc.hand

-- The queue is what was put in and not yet taken out, in the order it was put in; what was taken out
-- is done or in a thread's hand.
structure Conserved (history : List (Action Task × Mark Task)) (pool : ThreadPool Task) : Prop where
  queue_eq : marked Mark.pushed? history = marked Mark.popped? history ++ pool.tasks
  taken_perm : (marked Mark.popped? history).Perm (marked Mark.finished? history ++ pool.inHand)

section Move

variable {pool after : ThreadPool Task} {mark : Mark Task}

theorem hand_of_wake (threads : List (WorkerPc Task)) :
    (threads.map WorkerPc.wake).filterMap WorkerPc.hand = threads.filterMap WorkerPc.hand := by
  rw [List.filterMap_map]
  exact List.filterMap_congr fun pc _ => hand_wake pc

theorem owner_keeps_hands {pc main : MainPc} {poolState : Int} {locked : Bool}
    {threads : List (WorkerPc Task)} (move : OwnerMove pool pc poolState locked threads main) :
    threads.filterMap WorkerPc.hand = pool.threads.filterMap WorkerPc.hand := by
  cases move with
  | create => rw [List.filterMap_append]; simp [WorkerPc.hand]
  | broadcast | rebroadcast => exact hand_of_wake _
  | _ => rfl

-- What the marks say, against what happens to the queue and to the threads' hands.
theorem move_conserves (move : Move pool mark after) :
    pool.tasks ++ mark.pushed?.toList = mark.popped?.toList ++ after.tasks ∧
      (mark.popped?.toList ++ pool.inHand).Perm (mark.finished?.toList ++ after.inHand) := by
  cases move with
  | arrive task => exact ⟨List.append_nil _, List.Perm.refl _⟩
  | @worker j pc next tasks locked _ hj hmove =>
      have hhand := filterMap_move WorkerPc.hand hj next
      cases hmove with
      | enter hpc =>
          refine ⟨List.append_nil _, ?_⟩
          rcases hpc with rfl | rfl <;> exact hhand.symm
      | pop htasks => exact ⟨by rw [htasks]; exact List.append_nil _, hhand.symm⟩
      | _ => exact ⟨List.append_nil _, hhand.symm⟩
  | adder hi hmove =>
      cases hmove with
      | push => exact ⟨rfl, List.Perm.refl _⟩
      | _ => exact ⟨List.append_nil _, List.Perm.refl _⟩
  | signal hi hk =>
      exact ⟨List.append_nil _, (filterMap_move WorkerPc.hand hk .woken).symm⟩
  | owner hmove => exact ⟨List.append_nil _, List.Perm.of_eq (owner_keeps_hands hmove).symm⟩

theorem Conserved.step {history : List (Action Task × Mark Task)} {action : Action Task}
    (h : Conserved history pool) (hs : step pool action = some (after, mark)) :
    Conserved ((action, mark) :: history) after := by
  obtain ⟨hqueue, hhands⟩ := move_conserves (step_move hs)
  constructor
  · rw [marked_cons, marked_cons, h.queue_eq, List.append_assoc, hqueue, List.append_assoc]
  · rw [marked_cons, marked_cons]
    refine (h.taken_perm.append_right _).trans ?_
    rw [List.append_assoc, List.append_assoc]
    exact ((List.perm_append_comm).trans hhands).append_left _

end Move

theorem conserved_of_run {poolSize : Nat} {taskSizeLimit : Int} {pool : ThreadPool Task}
    {history : List (Action Task × Mark Task)}
    (run : Run step free (created poolSize taskSizeLimit) history pool) : Conserved history pool := by
  refine run.invariant Conserved ⟨rfl, List.Perm.refl _⟩ ?_
  exact fun _ _ _ _ _ h _ hs => h.step hs

-- No accepted task is lost, started twice or overtaken: in every interleaving the tasks are taken out
-- in the order they were put in, and each that was put in is finished, in the hand of one thread, or
-- in the queue.
theorem tasks_conserved {poolSize : Nat} {taskSizeLimit : Int} {pool : ThreadPool Task}
    {history : List (Action Task × Mark Task)}
    (run : Run step free (created poolSize taskSizeLimit) history pool) :
    marked Mark.popped? history <+: marked Mark.pushed? history ∧
      (marked Mark.pushed? history).Perm
        (marked Mark.finished? history ++ pool.inHand ++ pool.tasks) := by
  have h := conserved_of_run run
  refine ⟨⟨pool.tasks, h.queue_eq.symm⟩, ?_⟩
  rw [h.queue_eq]
  exact h.taken_perm.append_right _

-- The owner starts one thread, and a caller's task comes into its hand.
theorem tasks_conserved_in_hand : ∃ (history : List (Action Nat × Mark Nat)) (pool : ThreadPool Nat),
    pool.inHand = [7] ∧ (marked Mark.pushed? history).Perm
      (marked Mark.finished? history ++ pool.inHand ++ pool.tasks) := by
  obtain ⟨history, pool, run, htest⟩ := exists_run_of_ends step free (created 1 (-1) : ThreadPool Nat)
    [.main true, .main true, .main true, .addTask 7, .adder 0 0, .adder 0 0, .adder 0 0, .adder 0 0,
      .worker 0, .worker 0, .worker 0]
    (fun _ pool => decide (pool.inHand = [7])) (guarded_free _ _ _) (by decide +kernel)
  exact ⟨history, pool, of_decide_eq_true htest, (tasks_conserved run).2⟩

-- The pool as those see it who give it tasks.
def taskQueue (pool : ThreadPool Task) : TaskQueue Task where
  queue := pool.tasks
  hands := pool.threads.map WorkerPc.hand

-- What a step does to the queue and to the hands, by what it is marked with.
inductive Does (pool : TaskQueue Task) : Mark Task → TaskQueue Task → Prop
  | push (task : Task) : Does pool (.pushed task) (pool.push task)
  | take {j : Nat} {task : Task} {after : TaskQueue Task} (htask : pool.queue.head? = some task)
      (htake : pool.take j = some after) : Does pool (.popped task) after
  | putDown {j : Nat} {task : Task} (hj : pool.hands[j]? = some (some task)) :
      Does pool (.finished task) (pool.hold j none)
  | hire : Does pool .quiet { pool with hands := pool.hands ++ [none] }
  | rest : Does pool .quiet pool
  | refuse (task : Task) : Does pool (.rejected task) pool

theorem owner_hands {pool : ThreadPool Task} {pc main : MainPc} {poolState : Int} {locked : Bool}
    {threads : List (WorkerPc Task)} (move : OwnerMove pool pc poolState locked threads main) :
    threads.map WorkerPc.hand = pool.threads.map WorkerPc.hand ∨
      threads.map WorkerPc.hand = pool.threads.map WorkerPc.hand ++ [none] := by
  have hwake : (pool.threads.map WorkerPc.wake).map WorkerPc.hand =
      pool.threads.map WorkerPc.hand := by
    rw [List.map_map]
    exact List.map_congr_left fun pc _ => hand_wake pc
  cases move with
  | create => exact .inr List.map_append
  | broadcast => exact .inl hwake
  | rebroadcast => exact .inl hwake
  | _ => exact .inl rfl

-- The pool is such a queue, whatever its mutex, its condition variable and its owner do.
theorem step_taskQueue {pool after : ThreadPool Task} {action : Action Task} {mark : Mark Task}
    (hs : step pool action = some (after, mark)) : Does pool.taskQueue mark after.taskQueue := by
  -- a thread that goes on with the same thing in its hand
  have hsame : ∀ {j : Nat} {pc next : WorkerPc Task}, pool.threads[j]? = some pc →
      next.hand = pc.hand → (pool.threads.set j next).map WorkerPc.hand =
        pool.threads.map WorkerPc.hand := by
    intro j pc next hj hhand
    obtain ⟨hlt, rfl⟩ := List.getElem?_eq_some_iff.mp hj
    have hlt' : j < (pool.threads.map WorkerPc.hand).length := by rwa [List.length_map]
    have hself := List.set_getElem_self hlt'
    rw [List.getElem_map] at hself
    rw [List.map_set, hhand, hself]
  have hquiet : ∀ {threads : List (WorkerPc Task)},
      threads.map WorkerPc.hand = pool.threads.map WorkerPc.hand →
        Does pool.taskQueue .quiet { queue := pool.tasks, hands := threads.map WorkerPc.hand } := by
    intro threads hthreads
    rw [hthreads]
    exact .rest
  cases step_move hs with
  | arrive task => exact .rest
  | @worker j pc next tasks locked _ hj hmove =>
      have hhand : pool.taskQueue.hands[j]? = some pc.hand := by
        rw [taskQueue, List.getElem?_map, hj]
        rfl
      cases hmove with
      | enter hpc =>
          refine hquiet (hsame hj ?_)
          rcases hpc with rfl | rfl <;> rfl
      | pop htasks =>
          refine @Does.take _ _ j _ _ ?_ ?_
          · rw [taskQueue, htasks]
            rfl
          · simp only [taskQueue] at hhand
            simp only [TaskQueue.take, taskQueue, hhand, htasks, WorkerPc.hand, List.map_set]
      | finish =>
          have hdown := Does.putDown hhand
          simp only [TaskQueue.hold, taskQueue] at hdown ⊢
          rw [List.map_set]
          exact hdown
      | _ => exact hquiet (hsame hj rfl)
  | adder hi hmove =>
      cases hmove with
      | push => exact .push _
      | reject hfull => exact .refuse _
      | _ => exact .rest
  | signal hi hk => exact hquiet (hsame hk rfl)
  | owner hmove =>
      rcases owner_hands hmove with hthreads | hthreads
      · exact hquiet hthreads
      · have hhire := @Does.hire _ pool.taskQueue
        simp only [taskQueue] at hhire ⊢
        rw [hthreads]
        exact hhire

-- What holds of every state that the pool can come to.
structure Healthy (pool : ThreadPool Task) : Prop where
  sound : Sound pool
  supplied : Supplied pool
  bounded : Bounded pool
  awake : Awake pool
  manned : Manned pool

theorem Healthy.step {pool after : ThreadPool Task} {action : Action Task} {mark : Mark Task}
    (h : Healthy pool) (hs : step pool action = some (after, mark)) : Healthy after where
  sound := h.sound.move (step_move hs)
  supplied := h.supplied.move h.sound (step_move hs)
  bounded := h.bounded.move h.sound (step_move hs)
  awake := h.awake.move h.sound (step_move hs)
  manned := h.manned.move (step_move hs)

theorem healthy_created (poolSize : Nat) (taskSizeLimit : Int) :
    Healthy (created poolSize taskSizeLimit : ThreadPool Task) where
  sound := ⟨rfl, Nat.zero_le _, by simp [created, STOPPED, MainPc.stopped], nofun⟩
  supplied := nofun
  bounded := fun hlimit => by
    dsimp only [created] at hlimit ⊢
    simp only [List.length_nil, List.countP_nil]
    omega
  awake := nofun
  manned := ⟨fun _ => rfl, nofun⟩

theorem healthy_of_run {guard : List (Action Task × Mark Task) → ThreadPool Task → Action Task → Prop}
    {start pool : ThreadPool Task} {history : List (Action Task × Mark Task)} (hstart : Healthy start)
    (run : Run step guard start history pool) : Healthy pool :=
  run.invariant (fun _ pool => Healthy pool) hstart fun _ _ _ _ _ h _ hs => h.step hs

theorem limit_of_run {poolSize : Nat} {taskSizeLimit : Int} {pool : ThreadPool Task}
    {history : List (Action Task × Mark Task)}
    (run : Run step free (created poolSize taskSizeLimit) history pool) :
    pool.taskSizeLimit = taskSizeLimit := by
  refine run.invariant (fun _ pool => pool.taskSizeLimit = taskSizeLimit) rfl ?_
  intro _ _ _ _ _ h _ hs
  rw [← h]
  cases step_move hs <;> rfl

-- A limit lets one more task into the queue than it says, and a task is refused exactly at that
-- length.
theorem refused_beyond_limit {poolSize : Nat} {taskSizeLimit : Int} {pool : ThreadPool Task}
    {history : List (Action Task × Mark Task)} (hlimit : 0 < taskSizeLimit)
    (run : Run step free (created poolSize taskSizeLimit) history pool) :
    (pool.tasks.length : Int) ≤ taskSizeLimit + 1 ∧
      ∀ i k task, pool.adders[i]? = some (.testing task) →
        ((∃ after, step pool (.adder i k) = some (after, .rejected task)) ↔
          (pool.tasks.length : Int) = taskSizeLimit + 1) := by
  have hpool := healthy_of_run (healthy_created poolSize taskSizeLimit) run
  have hsame := limit_of_run run
  have hbound := hpool.bounded (by rwa [hsame])
  rw [hsame] at hbound
  refine ⟨by omega, fun i k task hi => ?_⟩
  simp only [step, hi, Option.bind_some, addTask, hsame]
  constructor
  · rintro ⟨after, hs⟩
    split at hs
    · omega
    · cases hs
  · intro hfull
    rw [if_pos ⟨hlimit, by omega⟩]
    exact ⟨_, rfl⟩

-- With a limit of one, two tasks are in the queue when the third one is refused.
theorem refused_beyond_limit_one : ∃ pool after : ThreadPool Nat, pool.tasks.length = 2 ∧
    step pool (.adder 2 0) = some (after, .rejected 3) := by
  obtain ⟨history, pool, run, htest⟩ := exists_run_of_ends step free (created 1 1 : ThreadPool Nat)
    [.addTask 1, .adder 0 0, .adder 0 0, .adder 0 0, .addTask 2, .adder 1 0, .adder 1 0, .adder 1 0,
      .addTask 3, .adder 2 0]
    (fun _ pool => decide (pool.tasks.length = 2 ∧ pool.adders[2]? = some (AdderPc.testing 3)))
    (guarded_free _ _ _) (by decide +kernel)
  obtain ⟨hlength, hi⟩ := of_decide_eq_true htest
  obtain ⟨-, hrefused⟩ := refused_beyond_limit (by decide) run
  obtain ⟨after, hs⟩ := (hrefused 2 0 3 hi).mpr (by rw [hlength]; rfl)
  exact ⟨pool, after, hlength, hs⟩

end ThreadPool

end VideoAdapter.Sak

import VideoAdapter.Lib.Threads

namespace VideoAdapter.Lib

-- What a pool of threads is to those who use it: a queue, and what each thread has in hand.
structure TaskQueue (Task : Type*) where
  queue : List Task := []
  hands : List (Option Task) := []
deriving DecidableEq, Repr

namespace TaskQueue

variable {Task : Type*} {pool : TaskQueue Task} {j : Nat} {task : Task}

def push (pool : TaskQueue Task) (task : Task) : TaskQueue Task :=
  { pool with queue := pool.queue ++ [task] }

-- A thread with empty hands takes the oldest task.
def take (pool : TaskQueue Task) (j : Nat) : Option (TaskQueue Task) :=
  match pool.hands[j]?, pool.queue with
  | some none, task :: rest => some { queue := rest, hands := pool.hands.set j (some task) }
  | _, _ => none

-- The thread goes on to another point of its task, or puts it down.
def hold (pool : TaskQueue Task) (j : Nat) (task : Option Task) : TaskQueue Task :=
  { pool with hands := pool.hands.set j task }

-- Every task that is there, queued or in hand.
def items (pool : TaskQueue Task) : List Task := pool.queue ++ pool.hands.filterMap id

theorem items_push (pool : TaskQueue Task) (task : Task) :
    (pool.push task).items.Perm (task :: pool.items) := by
  simp only [items, push, List.append_assoc, List.singleton_append]
  exact List.perm_middle

theorem items_hold (h : pool.hands[j]? = some (some task)) (next : Option Task) :
    ∃ others, pool.items.Perm (task :: others) ∧ (pool.hold j next).items.Perm (next.toList ++ others) := by
  obtain ⟨hj, heq⟩ := List.getElem?_eq_some_iff.mp h
  refine ⟨pool.queue ++ (pool.hands.eraseIdx j).filterMap id, ?_, ?_⟩
  · have hold := (List.getElem_cons_eraseIdx_perm hj).filterMap id
    rw [heq, List.filterMap_cons] at hold
    exact (hold.symm.append_left _).trans List.perm_middle
  · have hnew := (List.set_perm_cons_eraseIdx hj next).filterMap id
    have hcons : (next :: pool.hands.eraseIdx j).filterMap id =
        next.toList ++ (pool.hands.eraseIdx j).filterMap id := by
      rw [List.filterMap_cons]
      cases next <;> rfl
    rw [hcons] at hnew
    refine (hnew.append_left _).trans ?_
    rw [← List.append_assoc, ← List.append_assoc]
    exact List.perm_append_comm.append_right _

-- A task changes from the queue into a hand.
theorem items_take {after : TaskQueue Task} (h : pool.take j = some after) :
    after.items.Perm pool.items := by
  unfold take at h
  split at h
  · next hj htasks =>
      cases h
      have hhand := filterMap_move id hj (some ‹Task›)
      simp only [id, Option.toList, List.nil_append, List.singleton_append] at hhand
      simp only [items, htasks, List.cons_append]
      exact (hhand.append_left _).trans List.perm_middle
  · cases h

end TaskQueue

end VideoAdapter.Lib

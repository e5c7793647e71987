import Mathlib.Algebra.Order.Ring.Nat
import Mathlib.Data.List.Perm.Basic

namespace VideoAdapter.Lib

-- The threads of a process are a list of where each of them stands. A step of one of them replaces
-- one entry.
section Threads

variable {Thread Item : Type*} {threads : List Thread} {i : Nat} {thread : Thread}

-- What is counted of the old place goes, and what is counted of the new one comes.
theorem countP_move (p : Thread → Bool) (h : threads[i]? = some thread) (next : Thread) :
    (threads.set i next).countP p + (if p thread then 1 else 0) =
      threads.countP p + if p next then 1 else 0 := by
  obtain ⟨hi, rfl⟩ := List.getElem?_eq_some_iff.mp h
  have hone : (if p threads[i] then 1 else 0) ≤ threads.countP p := by
    split
    · next hp => exact List.one_le_countP_iff.mpr ⟨_, List.getElem_mem hi, hp⟩
    · exact Nat.zero_le _
  rw [List.countP_set hi]
  omega

theorem countP_concat (p : Thread → Bool) (next : Thread) :
    (threads ++ [next]).countP p = threads.countP p + if p next then 1 else 0 := by
  rw [List.countP_append, List.countP_singleton]

-- The same for a weight of each place.
theorem sum_move (weight : Thread → Nat) (h : threads[i]? = some thread) (next : Thread) :
    ((threads.set i next).map weight).sum + weight thread =
      (threads.map weight).sum + weight next := by
  induction threads generalizing i with
  | nil => simp at h
  | cons first rest ih =>
      cases i with
      | zero =>
          obtain rfl := Option.some.inj h
          simp only [List.set_cons_zero, List.map_cons, List.sum_cons]
          omega
      | succ i =>
          have hrest := ih (i := i) h
          simp only [List.set_cons_succ, List.map_cons, List.sum_cons]
          omega

-- The same for what each of them has in hand.
theorem filterMap_move (hand : Thread → Option Item) (h : threads[i]? = some thread)
    (next : Thread) :
    ((hand thread).toList ++ (threads.set i next).filterMap hand).Perm
      ((hand next).toList ++ threads.filterMap hand) := by
  obtain ⟨hi, rfl⟩ := List.getElem?_eq_some_iff.mp h
  have hnew := (List.set_perm_cons_eraseIdx hi next).filterMap hand
  have hold := (List.getElem_cons_eraseIdx_perm hi).filterMap hand
  have hcons : ∀ t : Thread, (t :: threads.eraseIdx i).filterMap hand =
      (hand t).toList ++ (threads.eraseIdx i).filterMap hand := by
    intro t
    rw [List.filterMap_cons]
    cases hand t <;> rfl
  rw [hcons] at hnew hold
  refine (hnew.append_left _).trans ?_
  rw [← List.append_assoc]
  refine (List.perm_append_comm.append_right _).trans ?_
  rw [List.append_assoc]
  exact hold.append_left _

theorem exists_of_countP_pos {p : Thread → Bool} (h : 0 < threads.countP p) :
    ∃ (i : Nat) (thread : Thread), threads[i]? = some thread ∧ p thread = true := by
  obtain ⟨thread, hmem, hp⟩ := List.countP_pos_iff.mp h
  obtain ⟨i, hi, rfl⟩ := List.getElem_of_mem hmem
  exact ⟨i, _, List.getElem?_eq_getElem hi, hp⟩

theorem countP_pos_of_getElem? {p : Thread → Bool} (h : threads[i]? = some thread)
    (hp : p thread = true) : 0 < threads.countP p :=
  List.countP_pos_iff.mpr ⟨thread, List.mem_of_getElem? h, hp⟩

end Threads

end VideoAdapter.Lib

import Mathlib.Data.List.Basic

namespace VideoAdapter.Lib

section Ledger

variable {α : Type*} {arrivals present gone : List α}

-- Everything that came in is still there, in the order it came, or has gone.
structure Ledger (arrivals present gone : List α) : Prop where
  perm : arrivals.Perm (present ++ gone)
  order : present.Sublist arrivals

namespace Ledger

theorem empty : Ledger ([] : List α) [] [] := ⟨.refl _, .refl _⟩

theorem arrive (h : Ledger arrivals present gone) (a : α) :
    Ledger (arrivals ++ [a]) (present ++ [a]) gone where
  perm := by
    refine (h.perm.append_right [a]).trans ?_
    rw [List.append_assoc, List.append_assoc]
    exact List.perm_append_comm.append_left present
  order := h.order.append (.refl _)

theorem remove (h : Ledger arrivals present gone) {kept removed : List α}
    (hsplit : present.Perm (kept ++ removed)) (hkept : kept.Sublist present) :
    Ledger arrivals kept (removed ++ gone) where
  perm := by
    rw [← List.append_assoc]
    exact h.perm.trans (hsplit.append_right gone)
  order := hkept.trans h.order

theorem mem_present (h : Ledger arrivals present gone) {a : α} (ha : a ∈ arrivals)
    (hgone : a ∉ gone) : a ∈ present :=
  (List.mem_append.mp (h.perm.mem_iff.mp ha)).resolve_right hgone

end Ledger

end Ledger

-- A list falls apart into what passes a test and what does not.
theorem perm_filter_not {α : Type*} (p : α → Bool) (l : List α) :
    l.Perm ((l.filter fun a => !p a) ++ l.filter p) :=
  ((List.filter_append_perm p l).symm.trans List.perm_append_comm)

theorem perm_eraseP {α : Type*} {p : α → Bool} {l : List α} {a : α} (h : l.find? p = some a) :
    l.Perm (l.eraseP p ++ [a]) := by
  induction l with
  | nil => cases h
  | cons b rest ih =>
      cases hb : p b with
      | true =>
          rw [List.find?_cons_of_pos hb] at h
          obtain rfl := Option.some.inj h
          rw [List.eraseP_cons_of_pos hb]
          exact (List.perm_append_singleton b rest).symm
      | false =>
          rw [List.find?_cons_of_neg (by simp [hb])] at h
          rw [List.eraseP_cons_of_neg (by simp [hb])]
          exact (ih h).cons b

end VideoAdapter.Lib

import Mathlib.Data.List.Basic

namespace VideoAdapter.Lib

variable {α : Type*}

-- Replaces the first element that satisfies the test, as a search loop that
-- breaks at its first hit does with the object it has found.
def updateFirst (test : α → Bool) (f : α → Option α) : List α → List α
  | [] => []
  | x :: rest => if test x then (f x).toList ++ rest else x :: updateFirst test f rest

variable {test : α → Bool} {f : α → Option α}

theorem mem_updateFirst {l : List α} {y : α} (hy : y ∈ updateFirst test f l) :
    y ∈ l ∨ ∃ x, l.find? test = some x ∧ f x = some y := by
  induction l with
  | nil => exact .inl hy
  | cons x rest ih =>
      by_cases hx : test x
      · simp only [updateFirst, hx, ite_true, List.mem_append, Option.mem_toList] at hy
        rcases hy with hy | hy
        · exact .inr ⟨x, by simp [hx], hy⟩
        · exact .inl (List.mem_cons_of_mem _ hy)
      · simp only [updateFirst, hx] at hy
        rcases List.mem_cons.mp hy with rfl | hy
        · exact .inl List.mem_cons_self
        · rcases ih hy with h | ⟨z, hz, hf⟩
          · exact .inl (List.mem_cons_of_mem _ h)
          · exact .inr ⟨z, by simp [hx, hz], hf⟩

-- A search for the same test finds the replacement, when there is one and it
-- still passes the test.
theorem find?_updateFirst (hf : ∀ x y, test x = true → f x = some y → test y = true)
    {l : List α} {x y : α} (hx : l.find? test = some x) (hy : f x = some y) :
    (updateFirst test f l).find? test = some y := by
  induction l with
  | nil => simp at hx
  | cons z rest ih =>
      by_cases hz : test z
      · simp only [List.find?_cons, hz, Option.some.injEq] at hx
        subst hx
        simp [updateFirst, hz, hy, hf z y hz hy]
      · simp only [List.find?_cons, hz] at hx
        simpa [updateFirst, hz] using ih hx

-- A projection that the replacement keeps: no value is added and none moves.
theorem map_updateFirst_sublist {β : Type*} {g : α → β} (hg : ∀ x y, f x = some y → g y = g x)
    (l : List α) : ((updateFirst test f l).map g).Sublist (l.map g) := by
  induction l with
  | nil => exact .slnil
  | cons x rest ih =>
      by_cases hx : test x
      · cases hf : f x with
        | none => simp [updateFirst, hx, hf]
        | some y => simp [updateFirst, hx, hf, hg x y hf]
      · simpa [updateFirst, hx] using ih

-- A projection under which the test and the replacement can be computed.
theorem map_updateFirst {β : Type*} (g : α → β) (test' : β → Bool) (f' : β → Option β)
    (ht : ∀ x, test x = test' (g x)) (hf : ∀ x, (f x).map g = f' (g x)) (l : List α) :
    (updateFirst test f l).map g = updateFirst test' f' (l.map g) := by
  induction l with
  | nil => rfl
  | cons x rest ih =>
      by_cases hx : test x
      · simp [updateFirst, hx, ← ht, ← hf, Option.toList_map]
      · simp [updateFirst, hx, ← ht, ih]

-- A projection sees the replacement only where it sees the element that is replaced.
theorem map_updateFirst_eq_iff {β : Type*} (g : α → β) {l : List α} {x y : α}
    (hx : l.find? test = some x) (hy : f x = some y) :
    (updateFirst test f l).map g = l.map g ↔ g y = g x := by
  induction l with
  | nil => cases hx
  | cons z rest ih =>
      by_cases hz : test z
      · rw [List.find?_cons_of_pos hz] at hx
        cases hx
        simp [updateFirst, hz, hy]
      · rw [List.find?_cons_of_neg hz] at hx
        simpa [updateFirst, hz] using ih hx

-- With distinct keys, removing the first element with the key of `x` removes `x`.
theorem not_mem_updateFirst_none {β : Type*} [DecidableEq β] {g : α → β} {l : List α}
    (hd : (l.map g).Nodup) (x : α) :
    x ∉ updateFirst (fun y => decide (g y = g x)) (fun _ => none) l := by
  induction l with
  | nil => simp [updateFirst]
  | cons y rest ih =>
      simp only [List.map_cons, List.nodup_cons] at hd
      by_cases hy : g y = g x
      · simp only [updateFirst, hy, decide_true, if_true, Option.toList_none, List.nil_append]
        intro hx
        exact hd.1 (hy ▸ List.mem_map_of_mem hx)
      · simp only [updateFirst, hy, decide_false, Bool.false_eq_true, if_false, List.mem_cons, not_or]
        refine ⟨?_, ih hd.2⟩
        rintro rfl
        exact hy rfl

-- With distinct keys, nothing that is left has the key of the removed element.
theorem ne_of_mem_updateFirst_none {β : Type*} {g : α → β} {l : List α} {x y : α}
    (hd : (l.map g).Nodup) (hx : l.find? test = some x)
    (hy : y ∈ updateFirst test (fun _ => none) l) : g y ≠ g x := by
  induction l with
  | nil => simp at hx
  | cons z rest ih =>
      simp only [List.map_cons, List.nodup_cons] at hd
      by_cases hz : test z
      · simp only [List.find?_cons, hz, Option.some.injEq] at hx
        subst hx
        simp only [updateFirst, hz, if_true, Option.toList_none, List.nil_append] at hy
        intro he
        exact hd.1 (he ▸ List.mem_map_of_mem hy)
      · simp only [List.find?_cons, hz] at hx
        simp only [updateFirst, hz, Bool.false_eq_true, if_false, List.mem_cons] at hy
        rcases hy with rfl | hy
        · intro he
          exact hd.1 (he ▸ List.mem_map_of_mem (List.mem_of_find?_eq_some hx))
        · exact ih hd.2 hx hy

theorem updateFirst_eq_self {l : List α} (h : l.find? test = none) : updateFirst test f l = l := by
  induction l with
  | nil => rfl
  | cons x rest ih =>
      have hx := List.find?_eq_none.mp h x List.mem_cons_self
      rw [updateFirst, if_neg hx, ih (List.find?_eq_none.mpr fun y hy =>
        List.find?_eq_none.mp h y (List.mem_cons_of_mem _ hy))]

theorem updateFirst_append_of_none {l : List α} (h : l.find? test = none) (tail : List α) :
    updateFirst test f (l ++ tail) = l ++ updateFirst test f tail := by
  induction l with
  | nil => rfl
  | cons x rest ih =>
      have hx := List.find?_eq_none.mp h x List.mem_cons_self
      rw [List.cons_append, updateFirst, if_neg hx, ih (List.find?_eq_none.mpr fun y hy =>
        List.find?_eq_none.mp h y (List.mem_cons_of_mem _ hy)), List.cons_append]

-- In a list in strict order, a search finds the least element that passes the test.
theorem find?_eq_some_iff_least {r : α → α → Prop} (hr : ∀ a b, r a b → ¬ r b a) {l : List α}
    (hl : l.Pairwise r) {x : α} :
    l.find? test = some x ↔ x ∈ l ∧ test x = true ∧ ∀ y ∈ l, test y = true → ¬ r y x := by
  induction l with
  | nil => simp
  | cons z rest ih =>
      obtain ⟨hz, hrest⟩ := List.pairwise_cons.mp hl
      by_cases ht : test z = true
      · rw [List.find?_cons_of_pos ht, Option.some.injEq]
        constructor
        · rintro rfl
          refine ⟨List.mem_cons_self, ht, fun y hy _ hyz => ?_⟩
          rcases List.mem_cons.mp hy with rfl | hy
          · exact hr y y hyz hyz
          · exact hr z y (hz y hy) hyz
        · rintro ⟨hx, -, hleast⟩
          rcases List.mem_cons.mp hx with rfl | hx
          · rfl
          · exact absurd (hz x hx) (hleast z List.mem_cons_self ht)
      · rw [List.find?_cons_of_neg ht, ih hrest]
        constructor
        · rintro ⟨hx, htx, hleast⟩
          refine ⟨List.mem_cons_of_mem _ hx, htx, fun y hy hty => ?_⟩
          rcases List.mem_cons.mp hy with rfl | hy
          · exact absurd hty ht
          · exact hleast y hy hty
        · rintro ⟨hx, htx, hleast⟩
          refine ⟨?_, htx, fun y hy => hleast y (List.mem_cons_of_mem _ hy)⟩
          rcases List.mem_cons.mp hx with rfl | hx
          · exact absurd htx ht
          · exact hx

-- Replacing what is found by itself.
theorem updateFirst_fixed {l : List α} (h : ∀ x, l.find? test = some x → f x = some x) :
    updateFirst test f l = l := by
  induction l with
  | nil => rfl
  | cons x rest ih =>
      by_cases hx : test x
      · simp [updateFirst, hx, h x (by simp [hx])]
      · simp only [updateFirst, hx, Bool.false_eq_true, if_false]
        rw [ih fun y hy => h y (by simp [hx, hy])]

-- Where only one element has a key, an element with that key is the replacement.
theorem mem_updateFirst_of_count {β : Type*} [DecidableEq β] {g : α → β} {b : β} {l : List α}
    (hsingle : (l.map g).count b ≤ 1) {y : α}
    (hy : y ∈ updateFirst (fun x => decide (g x = b)) f l) (hb : g y = b) :
    ∃ x, l.find? (fun x => decide (g x = b)) = some x ∧ f x = some y := by
  induction l with
  | nil => cases hy
  | cons x rest ih =>
      rw [List.map_cons, List.count_cons] at hsingle
      by_cases hx : g x = b
      · simp only [updateFirst, hx, decide_true, if_true, List.mem_append, Option.mem_toList] at hy
        rcases hy with hy | hy
        · exact ⟨x, by simp [hx], hy⟩
        · have hcount : 0 < (rest.map g).count b :=
            List.count_pos_iff.mpr (hb ▸ List.mem_map_of_mem hy)
          simp only [hx, beq_self_eq_true, if_true] at hsingle
          omega
      · simp only [updateFirst, hx, decide_false, Bool.false_eq_true, if_false, List.mem_cons] at hy
        rcases hy with rfl | hy
        · exact absurd hb hx
        · obtain ⟨z, hz, hfz⟩ := ih (by omega) hy
          exact ⟨z, by simp [hx, hz], hfz⟩

-- Two tests that agree on a list find the same element in it.
theorem find?_congr {other : α → Bool} {l : List α} (h : ∀ x ∈ l, test x = other x) :
    l.find? test = l.find? other := by
  induction l with
  | nil => rfl
  | cons x rest ih =>
      rw [List.find?_cons, List.find?_cons, h x List.mem_cons_self,
        ih fun y hy => h y (List.mem_cons_of_mem _ hy)]

end VideoAdapter.Lib

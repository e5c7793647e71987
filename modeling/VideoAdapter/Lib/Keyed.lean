import Mathlib.Data.List.Nodup

namespace VideoAdapter.Lib

section Keyed

variable {α κ : Type*} [DecidableEq κ] {key : α → κ} {l : List α}

-- A list as a finite map from the keys of its elements. It is one when the keys are distinct.
def findKey (key : α → κ) (l : List α) (k : κ) : Option α := l.find? fun a => key a = k

theorem findKey_eq_none_iff {k : κ} : findKey key l k = none ↔ ∀ a ∈ l, key a ≠ k := by
  simp [findKey]

-- The three ways to change the map at one key.
theorem findKey_append {a : α} (hfree : findKey key l (key a) = none) :
    findKey key (l ++ [a]) = Function.update (findKey key l) (key a) (some a) := by
  funext k
  by_cases hk : k = key a
  · subst hk
    rw [Function.update_self, findKey, List.find?_append, ← findKey, hfree]
    simp
  · rw [Function.update_of_ne hk, findKey, List.find?_append, ← findKey]
    simp [Ne.symm hk]

theorem findKey_filter (k : κ) :
    findKey key (l.filter fun a => key a ≠ k) = Function.update (findKey key l) k none := by
  funext other
  by_cases hk : other = k
  · subst hk
    rw [Function.update_self, findKey_eq_none_iff]
    intro a ha
    exact of_decide_eq_true (List.mem_filter.mp ha).2
  · rw [Function.update_of_ne hk, findKey, List.find?_filter, findKey]
    congr 1
    funext a
    by_cases ha : key a = other
    · simp [ha, hk]
    · simp [ha]

theorem findKey_map {f : α → α} (hf : ∀ a, key (f a) = key a) (k : κ) :
    findKey key (l.map fun a => if key a = k then f a else a) =
      Function.update (findKey key l) k ((findKey key l k).map f) := by
  have hkey : ∀ a, key (if key a = k then f a else a) = key a := by
    intro a
    split
    · exact hf a
    · rfl
  have hsearch : ∀ other, (fun a => decide (key a = other)) ∘ (fun a => if key a = k then f a else a) =
      fun a => decide (key a = other) := by
    intro other
    funext a
    rw [Function.comp_apply, hkey]
  funext other
  rw [findKey, List.find?_map, hsearch, ← findKey]
  cases hfound : findKey key l other with
  | none =>
      by_cases hk : other = k
      · subst hk
        rw [Function.update_self, hfound]
        rfl
      · rw [Function.update_of_ne hk, hfound]
        rfl
  | some a =>
      have hka := List.find?_some hfound
      obtain rfl : key a = other := of_decide_eq_true hka
      by_cases hk : key a = k
      · subst hk
        rw [Function.update_self, hfound]
        simp
      · rw [Function.update_of_ne hk, hfound]
        simp [hk]

-- A new element under a free key makes no key double.
theorem nodup_append_key {a : α} (hd : (l.map key).Nodup) (hfree : findKey key l (key a) = none) :
    ((l ++ [a]).map key).Nodup := by
  rw [List.map_append, List.map_singleton]
  refine hd.append (List.nodup_singleton _) ?_
  rw [List.disjoint_singleton]
  intro hmem
  obtain ⟨b, hb, hk⟩ := List.mem_map.mp hmem
  exact findKey_eq_none_iff.mp hfree b hb hk

end Keyed

end VideoAdapter.Lib

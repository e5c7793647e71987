import Mathlib.Data.List.Basic

namespace VideoAdapter.Lib

-- A stream is the concatenation of the encodings of its items.
variable {α β : Type*} {encode : α → List β} {items whole later : List α} {pre rest part : List β}

-- Every prefix of a stream is a number of whole items, and then nothing or a proper part
-- of the next item.
theorem exists_cut (h : pre ++ rest = items.flatMap encode) :
    ∃ whole later part, items = whole ++ later ∧ pre = whole.flatMap encode ++ part ∧
      (part = [] ∨ ∃ next tail missing, later = next :: tail ∧ part ≠ [] ∧ missing ≠ [] ∧
        encode next = part ++ missing) := by
  induction items generalizing pre with
  | nil =>
      obtain ⟨rfl, -⟩ := List.append_eq_nil_iff.mp h
      exact ⟨[], [], [], rfl, rfl, .inl rfl⟩
  | cons x xs ih =>
      rw [List.flatMap_cons] at h
      rcases List.append_eq_append_iff.mp h with ⟨missing, hx, -⟩ | ⟨pre', rfl, hrest⟩
      · -- the prefix ends inside the first item, or just at its end
        by_cases hm : missing = []
        · subst hm
          exact ⟨[x], xs, [], rfl, by simpa using hx.symm, .inl rfl⟩
        · by_cases hp : pre = []
          · exact ⟨[], x :: xs, [], rfl, by simpa using hp, .inl rfl⟩
          · exact ⟨[], x :: xs, pre, rfl, rfl, .inr ⟨x, xs, missing, rfl, hp, hm, hx⟩⟩
      · obtain ⟨whole, later, part, rfl, rfl, hpart⟩ := ih hrest.symm
        exact ⟨x :: whole, later, part, rfl, by simp, hpart⟩

-- A prefix that consists of whole items.
def Aligned (encode : α → List β) (items : List α) (pre : List β) : Prop :=
  ∃ whole, whole <+: items ∧ pre = whole.flatMap encode

theorem aligned_nil : Aligned encode items [] := ⟨[], List.nil_prefix, rfl⟩

theorem length_flatMap_le (encode : α → List β) (h : whole <+: later) :
    (whole.flatMap encode).length ≤ (later.flatMap encode).length := by
  obtain ⟨tail, rfl⟩ := h
  simp

-- The next item begins but does not end in the prefix.
theorem not_aligned_of_part {next : α} {tail : List α} {missing : List β} (hp : part ≠ [])
    (hm : missing ≠ []) (he : encode next = part ++ missing) :
    ¬ Aligned encode (whole ++ next :: tail) (whole.flatMap encode ++ part) := by
  rintro ⟨other, hother, heq⟩
  have hlen := congrArg List.length heq
  have hpart := List.length_pos_iff.mpr hp
  have hmissing := List.length_pos_iff.mpr hm
  have hnext : ((whole ++ [next]).flatMap encode).length =
      (whole.flatMap encode).length + part.length + missing.length := by
    simp [he, Nat.add_assoc]
  rw [List.length_append] at hlen
  have hitems : whole ++ [next] <+: whole ++ next :: tail := by simp
  rcases List.prefix_or_prefix_of_prefix hother hitems with hle | hge
  · rcases List.prefix_concat_iff.mp hle with rfl | hle
    · omega
    · have hmono := length_flatMap_le encode hle
      omega
  · have hmono := length_flatMap_le encode hge
    omega

-- Whole items in front do not matter.
theorem aligned_append :
    Aligned encode (whole ++ later) (whole.flatMap encode ++ pre) ↔ Aligned encode later pre := by
  constructor
  · rintro ⟨other, hother, heq⟩
    rcases List.prefix_or_prefix_of_prefix hother (List.prefix_append whole later) with hle | hge
    · have hmono := length_flatMap_le encode hle
      have hlen := congrArg List.length heq
      rw [List.length_append] at hlen
      have hnil : pre = [] := List.length_eq_zero_iff.mp (by omega)
      exact hnil ▸ aligned_nil
    · obtain ⟨next, rfl⟩ := hge
      rw [List.flatMap_append] at heq
      exact ⟨next, (List.prefix_append_right_inj whole).mp hother, List.append_cancel_left heq⟩
  · rintro ⟨next, hnext, rfl⟩
    exact ⟨whole ++ next, (List.prefix_append_right_inj whole).mpr hnext, by simp⟩

end VideoAdapter.Lib

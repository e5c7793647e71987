import Mathlib.Algebra.Order.Ring.Int
import Mathlib.Data.List.Infix

namespace VideoAdapter.Lib

-- What a signed integer of 32 bits keeps of a position.
def toInt (n : Int) : Int := n.bmod (2 ^ 32)

theorem toInt_of_small {n : Int} (hlow : -2 ^ 31 ≤ n) (hsmall : n < 2 ^ 31) : toInt n = n :=
  Int.bmod_eq_of_le (by omega) (by omega)

theorem toInt_bounds (n : Int) : -2 ^ 31 ≤ toInt n ∧ toInt n < 2 ^ 31 := by
  have hlow : -((2 ^ 32 : Nat) / 2 : Int) ≤ n.bmod (2 ^ 32) := Int.le_bmod (by decide)
  have hhigh : n.bmod (2 ^ 32) < ((2 ^ 32 : Nat) + 1) / 2 := Int.bmod_lt (by decide)
  unfold toInt
  omega

theorem toInt_le {n : Int} (hnonneg : 0 ≤ n) : toInt n ≤ n := by
  by_cases hsmall : n < 2 ^ 31
  · exact Int.le_of_eq (toInt_of_small (by omega) hsmall)
  · have h := (toInt_bounds n).2
    omega

section Text

variable {α : Type*} [DecidableEq α]

-- Where a word occurs first.
def findWord (word : List α) : List α → Option Nat
  | [] => if word = [] then some 0 else none
  | c :: rest =>
      if word.isPrefixOf (c :: rest) then some 0 else (findWord word rest).map (· + 1)

-- The same position in a signed integer, with -1 for a word that does not occur.
def findPos (word s : List α) : Int :=
  match findWord word s with
  | none => -1
  | some i => toInt i

-- The text from a position on, which throws when the position is behind the end. A negative
-- position is read as an unsigned one and so is behind the end of any text.
def substr (pos : Int) (s : List α) : Option (List α) :=
  if 0 ≤ pos ∧ pos ≤ s.length then some (s.drop pos.toNat) else none

-- The text up to a count, which may be too large. A negative one is.
def substrTo (count : Int) (s : List α) : List α :=
  if 0 ≤ count then s.take count.toNat else s

omit [DecidableEq α] in
theorem substr_sublist {pos : Int} {s t : List α} (h : substr pos s = some t) : t.Sublist s := by
  unfold substr at h
  split at h
  · cases h
    exact List.drop_sublist _ _
  · cases h

omit [DecidableEq α] in
theorem substrTo_sublist (count : Int) (s : List α) : (substrTo count s).Sublist s := by
  unfold substrTo
  split
  · exact List.take_sublist _ _
  · exact List.Sublist.refl s

theorem findWord_eq_some_iff {word : List α} (hword : word ≠ []) {s : List α} {i : Nat} :
    findWord word s = some i ↔ word <+: s.drop i ∧ ∀ j < i, ¬ word <+: s.drop j := by
  induction s generalizing i with
  | nil => simp [findWord, hword]
  | cons c rest ih =>
      by_cases hfirst : word <+: c :: rest
      · have hfind : findWord word (c :: rest) = some 0 := by
          simp [findWord, List.isPrefixOf_iff_prefix, hfirst]
        rw [hfind]
        constructor
        · rintro ⟨⟩
          exact ⟨hfirst, fun j hj => absurd hj (Nat.not_lt_zero j)⟩
        · rintro ⟨-, hearlier⟩
          cases i with
          | zero => rfl
          | succ k => exact absurd hfirst (hearlier 0 (Nat.succ_pos k))
      · have hfind : findWord word (c :: rest) = (findWord word rest).map (· + 1) := by
          simp [findWord, List.isPrefixOf_iff_prefix, hfirst]
        rw [hfind]
        cases i with
        | zero => simp [hfirst]
        | succ k =>
            have hmap : (findWord word rest).map (· + 1) = some (k + 1) ↔ findWord word rest = some k := by
              simp
            rw [hmap, ih]
            constructor
            · rintro ⟨hhere, hearlier⟩
              refine ⟨hhere, fun j hj => ?_⟩
              cases j with
              | zero => exact hfirst
              | succ m => exact hearlier m (by omega)
            · rintro ⟨hhere, hearlier⟩
              exact ⟨hhere, fun j hj => hearlier (j + 1) (by omega)⟩

theorem findWord_eq_none_iff {word : List α} (hword : word ≠ []) {s : List α} :
    findWord word s = none ↔ ¬ word <:+: s := by
  induction s with
  | nil => simp [findWord, hword]
  | cons c rest ih =>
      rw [List.infix_cons_iff, not_or]
      by_cases hfirst : word <+: c :: rest
      · simp [findWord, List.isPrefixOf_iff_prefix, hfirst]
      · simp [findWord, List.isPrefixOf_iff_prefix, hfirst, ih]

-- The text around the first occurrence.
theorem findWord_split {word : List α} (hword : word ≠ []) {s : List α} {i : Nat}
    (h : findWord word s = some i) :
    s = s.take i ++ (word ++ s.drop (i + word.length)) ∧ i + word.length ≤ s.length := by
  obtain ⟨⟨rest, hrest⟩, -⟩ := (findWord_eq_some_iff hword).mp h
  have hpos : 0 < word.length := List.length_pos_of_ne_nil hword
  have hlen : word.length + rest.length = s.length - i := by
    rw [← List.length_append, hrest, List.length_drop]
  have hdrop : s.drop (i + word.length) = rest := by
    rw [← List.drop_drop, ← hrest, List.drop_left]
  refine ⟨?_, by omega⟩
  rw [hdrop, hrest, List.take_append_drop]

-- No proper ending of the word is a beginning of it.
def Unbordered (word : List α) : Prop := ∀ k < word.length, 0 < k → ¬ word.drop k <+: word

instance (word : List α) : Decidable (Unbordered word) :=
  inferInstanceAs (Decidable (∀ k < word.length, 0 < k → ¬ word.drop k <+: word))

-- An occurrence that begins in the text before either lies in it or overlaps the one behind it.
theorem findWord_seam {word : List α} (hword : word ≠ []) (hborder : Unbordered word)
    {before : List α} (hbefore : ¬ word <:+: before) (after : List α) :
    findWord word (before ++ (word ++ after)) = some before.length := by
  rw [findWord_eq_some_iff hword]
  refine ⟨by rw [List.drop_left]; exact List.prefix_append word after, ?_⟩
  intro j hj hocc
  rw [List.drop_append_of_le_length (by omega)] at hocc
  have hlen : (before.drop j).length = before.length - j := List.length_drop
  by_cases hfits : j + word.length ≤ before.length
  · have hin : word <+: before.drop j :=
      List.prefix_of_prefix_length_le hocc (List.prefix_append _ _) (by omega)
    exact hbefore (hin.isInfix.trans (List.drop_suffix j before).isInfix)
  · have hover : before.drop j <+: word :=
      List.prefix_of_prefix_length_le (List.prefix_append _ _) hocc (by omega)
    obtain ⟨tail, htail⟩ := hover
    have hdrop : word.drop (before.length - j) = tail := by
      rw [← htail, ← hlen, List.drop_left]
    apply hborder (before.length - j) (by omega) (by omega)
    rw [hdrop]
    -- behind the seam stand the word once more and, at the same place, its own ending
    rw [← htail, List.prefix_append_right_inj, htail] at hocc
    have hle : tail.length ≤ word.length := by
      rw [← htail, List.length_append]
      omega
    exact List.prefix_of_prefix_length_le hocc (List.prefix_append _ _) hle

theorem findPos_bounds (word s : List α) : -2 ^ 31 ≤ findPos word s ∧ findPos word s < 2 ^ 31 := by
  unfold findPos
  split
  · decide
  · exact toInt_bounds _

-- A position that is found lies in front of a whole word's length of text, also when it was cut.
theorem findPos_add_length_le {word s : List α} (hword : word ≠ []) (h : 0 ≤ findPos word s) :
    findPos word s + word.length ≤ s.length := by
  unfold findPos at h ⊢
  split at h
  · exact absurd h (by decide)
  · rename_i i hfind
    have hle := (findWord_split hword hfind).2
    have hcut : toInt i ≤ i := toInt_le (Int.natCast_nonneg i)
    omega

theorem findPos_of_absent {word s : List α} (hword : word ≠ []) (h : ¬ word <:+: s) :
    findPos word s = -1 := by
  unfold findPos
  rw [(findWord_eq_none_iff hword).mpr h]

-- A text that has the word is cut at its first occurrence.
theorem exists_seam {word s : List α} (hword : word ≠ []) (h : word <:+: s) :
    ∃ before after, s = before ++ (word ++ after) ∧ ¬ word <:+: before := by
  cases hfind : findWord word s with
  | none => exact absurd h ((findWord_eq_none_iff hword).mp hfind)
  | some i =>
      obtain ⟨hsplit, hle⟩ := findWord_split hword hfind
      obtain ⟨-, hearlier⟩ := (findWord_eq_some_iff hword).mp hfind
      refine ⟨s.take i, s.drop (i + word.length), hsplit, ?_⟩
      rintro ⟨a, b, hab⟩
      have hpos : 0 < word.length := List.length_pos_of_ne_nil hword
      have hlen : a.length + word.length + b.length = min i s.length := by
        rw [← List.length_take, ← hab, List.length_append, List.length_append]
      apply hearlier a.length (by omega)
      have hs : s = a ++ (word ++ (b ++ s.drop i)) := by
        conv_lhs => rw [← List.take_append_drop i s, ← hab]
        simp only [List.append_assoc]
      rw [hs, List.drop_left]
      exact List.prefix_append word _

-- The cuts at a word that does not occur before, with positions that a signed integer holds.
theorem cuts_at_seam {word : List α} (hword : word ≠ []) (hborder : Unbordered word)
    {before after : List α} (hbefore : ¬ word <:+: before)
    (hsmall : (before ++ (word ++ after)).length < 2 ^ 31) :
    findPos word (before ++ (word ++ after)) = before.length ∧
      substrTo before.length (before ++ (word ++ after)) = before ∧
      substr (toInt (before.length + word.length)) (before ++ (word ++ after)) = some after := by
  simp only [List.length_append] at hsmall
  refine ⟨?_, ?_, ?_⟩
  · unfold findPos
    rw [findWord_seam hword hborder hbefore]
    exact toInt_of_small (by omega) (by omega)
  · unfold substrTo
    rw [if_pos (by omega), Int.toNat_natCast, List.take_left]
  · rw [toInt_of_small (by omega) (by omega)]
    unfold substr
    rw [if_pos (by simp only [List.length_append]; omega),
      show ((before.length : Int) + word.length).toNat = (before ++ word).length by
        rw [List.length_append]; omega, ← List.append_assoc, List.drop_left]

end Text

end VideoAdapter.Lib

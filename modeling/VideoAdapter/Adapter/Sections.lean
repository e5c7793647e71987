import Mathlib.Data.List.Infix
import VideoAdapter.Adapter.Schedule

namespace VideoAdapter.Adapter

open Lib

-- The position of the first '-' as the code holds it, and the texts on its two sides.
def dash (sec : String) : Int := findPos ['-'] sec.toList

def before (sec : String) : List Char := sec.toList.take (dash sec).toNat

def after (sec : String) : List Char := sec.toList.drop ((dash sec).toNat + 1)

-- Both sides of the '-' have the four characters that the two insertions need.
def Cuttable (sec : String) : Prop :=
  dash sec = -1 ∨ (4 ≤ dash sec ∧ dash sec + 1 < 2 ^ 31 ∧ dash sec + 5 ≤ sec.length)

instance (sec : String) : Decidable (Cuttable sec) :=
  inferInstanceAs (Decidable (_ ∨ _))

-- A colon behind the second and behind the fourth character.
def colons (cs : List Char) : String :=
  String.ofList (cs.take 2 ++ ':' :: ((cs.drop 2).take 2 ++ ':' :: cs.drop 4))

theorem withColons_eq (cs : List Char) :
    withColons cs = if 4 ≤ cs.length then some (colons cs) else none := by
  match cs with
  | [] => rfl
  | [_] => rfl
  | [_, _] => rfl
  | [_, _, _] => rfl
  | c :: d :: c' :: d' :: tail =>
      rw [if_pos (by simp)]
      simp [withColons, insertColon, colons]

theorem dash_lt (sec : String) (h : 0 ≤ dash sec) : dash sec + 1 ≤ sec.length := by
  have hle := findPos_add_length_le (by decide : ['-'] ≠ []) h
  rw [String.length_toList] at hle
  exact hle

-- The cuts throw when a side is too short, and when the position is one that an `int` lost.
theorem cutSection_eq {sec : String} (hdash : dash sec ≠ -1) :
    cutSection (dash sec) sec.toList =
      if 4 ≤ dash sec ∧ dash sec + 1 < 2 ^ 31 ∧ dash sec + 5 ≤ sec.length then
        some (colons (before sec), colons (after sec))
      else none := by
  obtain ⟨hlow, hhigh⟩ := findPos_bounds ['-'] sec.toList
  change -2 ^ 31 ≤ dash sec at hlow
  change dash sec < 2 ^ 31 at hhigh
  have hlen : sec.toList.length = sec.length := String.length_toList
  simp only [cutSection, withColons_eq, Option.bind_eq_bind, Option.pure_def]
  by_cases hneg : dash sec < 0
  · -- the second cut is at a negative position
    have hrest : substr (toInt (dash sec + 1)) sec.toList = none := by
      rw [toInt_of_small (by omega) (by omega)]
      exact if_neg (by omega)
    rw [hrest, if_neg (show ¬ (4 ≤ dash sec ∧ _) by omega)]
    split <;> rfl
  · have hlt := dash_lt sec (by omega)
    have hbefore : substrTo (dash sec) sec.toList = before sec := if_pos (by omega)
    have hblen : (before sec).length = (dash sec).toNat := by
      rw [before, List.length_take]
      omega
    have halen : (after sec).length = sec.length - ((dash sec).toNat + 1) := by
      rw [after, List.length_drop, hlen]
    by_cases hlast : dash sec + 1 < 2 ^ 31
    · have hrest : substr (toInt (dash sec + 1)) sec.toList = some (after sec) := by
        rw [toInt_of_small (by omega) hlast, substr, if_pos (by omega), after,
          show (dash sec + 1).toNat = (dash sec).toNat + 1 by omega]
      rw [hbefore, hrest]
      by_cases hb : 4 ≤ (before sec).length
      · by_cases ha : 4 ≤ (after sec).length
        · rw [if_pos hb, Option.bind_some, Option.bind_some, if_pos ha, Option.bind_some,
            if_pos (by omega)]
        · rw [if_pos hb, Option.bind_some, Option.bind_some, if_neg ha, Option.bind_none,
            if_neg (by omega)]
      · rw [if_neg hb, Option.bind_none, if_neg (by omega)]
    · have hrest : substr (toInt (dash sec + 1)) sec.toList = none := by
        rw [show dash sec + 1 = 2 ^ 31 by omega, show toInt (2 ^ 31) = -2 ^ 31 by decide]
        exact if_neg (by omega)
      rw [hrest, if_neg (show ¬ (4 ≤ dash sec ∧ _) by omega)]
      split <;> rfl

-- The two sides of the first '-', in a text whose positions an `int` holds.
theorem sides_of_split {sec : String} {a b : List Char} (hsec : sec.toList = a ++ '-' :: b)
    (ha : '-' ∉ a) (hsmall : sec.length < 2 ^ 31) :
    dash sec = a.length ∧ before sec = a ∧ after sec = b := by
  have hword : ¬ ['-'] <:+: a := fun h => ha (h.subset (List.mem_singleton_self _))
  have hlen : (a ++ (['-'] ++ b)).length < 2 ^ 31 := by
    rw [← String.length_toList, hsec] at hsmall
    exact hsmall
  have hdash : dash sec = a.length := by
    rw [dash, hsec]
    exact (cuts_at_seam (by decide) (by decide) hword hlen).1
  refine ⟨hdash, ?_, ?_⟩
  · rw [before, hdash, hsec, Int.toNat_natCast, List.take_left]
  · rw [after, hdash, hsec, Int.toNat_natCast, ← List.drop_drop, List.drop_left]
    rfl

theorem split_at_dash {sec : String} (hsmall : sec.length < 2 ^ 31) (hdash : dash sec ≠ -1) :
    sec.toList = before sec ++ '-' :: after sec ∧ '-' ∉ before sec := by
  by_cases hword : ['-'] <:+: sec.toList
  · obtain ⟨a, b, hsec, ha⟩ := exists_seam (by decide) hword
    have hnot : '-' ∉ a := fun h => ha ((List.singleton_infix_iff _ _).mpr h)
    obtain ⟨-, hbefore, hafter⟩ := sides_of_split hsec hnot hsmall
    rw [hbefore, hafter]
    exact ⟨hsec, hnot⟩
  · exact absurd (findPos_of_absent (by decide) hword) hdash

-- Below 2^31 characters the cuts are good when there is no '-', or four characters on each side of
-- the first one.
theorem cuttable_iff {sec : String} (hsmall : sec.length < 2 ^ 31) :
    Cuttable sec ↔ '-' ∉ sec.toList ∨
      ∃ a b, sec.toList = a ++ '-' :: b ∧ '-' ∉ a ∧ 4 ≤ a.length ∧ 4 ≤ b.length := by
  by_cases hdash : dash sec = -1
  · have hnot : '-' ∉ sec.toList := by
      intro h
      obtain ⟨l, r, hsec, hl⟩ := List.eq_append_cons_of_mem h
      obtain ⟨hpos, -⟩ := sides_of_split hsec hl hsmall
      omega
    exact iff_of_true (.inl hdash) (.inl hnot)
  · obtain ⟨hsec, hnot⟩ := split_at_dash hsmall hdash
    obtain ⟨hpos, -⟩ := sides_of_split hsec hnot hsmall
    have hlen : sec.length = (before sec).length + (1 + (after sec).length) := by
      rw [← String.length_toList]
      conv_lhs => rw [hsec]
      rw [List.length_append, List.length_cons, Nat.add_comm 1]
    constructor
    · intro h
      obtain ⟨hfour, -, hrest⟩ := h.resolve_left hdash
      exact .inr ⟨_, _, hsec, hnot, by omega, by omega⟩
    · rintro (h | ⟨a, b, hab, ha, hfour, hfour'⟩)
      · exact absurd (by rw [hsec]; simp) h
      · obtain ⟨-, hbefore, hafter⟩ := sides_of_split hab ha hsmall
        rw [hbefore, hafter] at hlen
        rw [hbefore] at hpos
        exact .inr (by omega)

section Parsing

variable {mktime : Tm → Int}

-- The two times of a section are readable and the first is not behind the second.
def InOrder (mktime : Tm → Int) (sec : String) : Prop :=
  dash sec ≠ -1 ∧ timeCompare mktime (colons (before sec)) (colons (after sec)) = true

instance (mktime : Tm → Int) (sec : String) : Decidable (InOrder mktime sec) :=
  inferInstanceAs (Decidable (_ ∧ _))

theorem parseSection_of_cuttable {sec : String} (h : Cuttable sec) :
    parseSection mktime sec =
      some (if InOrder mktime sec then some (colons (before sec), colons (after sec)) else none) := by
  by_cases hdash : dash sec = -1
  · rw [if_neg (fun horder => horder.1 hdash)]
    exact if_pos hdash
  · have hcut := (cutSection_eq hdash).trans (if_pos (h.resolve_left hdash))
    by_cases horder : timeCompare mktime (colons (before sec)) (colons (after sec)) = true
    · rw [if_pos ⟨hdash, horder⟩]
      exact parseSection_eq_accepted_iff.mpr ⟨hdash, hcut, horder⟩
    · rw [if_neg (fun h => horder h.2)]
      unfold parseSection
      simp only [dash] at hdash hcut
      simp [hdash, hcut, horder]

theorem parseSection_eq_none_iff {sec : String} : parseSection mktime sec = none ↔ ¬ Cuttable sec := by
  constructor
  · intro h hcut
    rw [parseSection_of_cuttable hcut] at h
    cases h
  · intro h
    obtain ⟨hdash, hshort⟩ : dash sec ≠ -1 ∧ _ := not_or.mp h
    have hcut := (cutSection_eq hdash).trans (if_neg hshort)
    simp only [dash] at hdash hcut
    simp [parseSection, hdash, hcut]

-- What the reference arguments hold once a section is accepted.
def Windows.first (w : Windows) (sec : String) : Windows :=
  { w with s0 := colons (before sec), e0 := colons (after sec) }

def Windows.second (w : Windows) (sec : String) : Windows :=
  { w with s1 := colons (before sec), e1 := colons (after sec) }

-- The five ways to return.
theorem parseTimeSection_cases {sec0 sec1 : String} {w w' : Windows} {r : Int}
    (h : parseTimeSection mktime sec0 sec1 w = some (r, w')) :
    Cuttable sec0 ∧
      (¬ InOrder mktime sec0 ∧ r = -1 ∧ w' = w ∨
        InOrder mktime sec0 ∧
          (sec1 = "" ∧ r = 1 ∧ w' = w.first sec0 ∨
            sec1 ≠ "" ∧ Cuttable sec1 ∧
              (¬ InOrder mktime sec1 ∧ r = -1 ∧ w' = w.first sec0 ∨
                InOrder mktime sec1 ∧ w' = (w.first sec0).second sec1 ∧
                  r = if timeCompare mktime (colons (after sec0)) (colons (before sec1)) then 2
                    else -1))) := by
  have hcut0 : Cuttable sec0 := by
    by_contra hcut
    rw [parseTimeSection, parseSection_eq_none_iff.mpr hcut] at h
    cases h
  refine ⟨hcut0, ?_⟩
  rw [parseTimeSection, parseSection_of_cuttable hcut0] at h
  by_cases horder0 : InOrder mktime sec0
  · refine .inr ⟨horder0, ?_⟩
    simp only [if_pos horder0] at h
    by_cases hone : sec1 = ""
    · rw [if_pos hone] at h
      cases h
      exact .inl ⟨hone, rfl, rfl⟩
    · refine .inr ⟨hone, ?_⟩
      rw [if_neg hone] at h
      have hcut1 : Cuttable sec1 := by
        by_contra hcut
        rw [parseSection_eq_none_iff.mpr hcut] at h
        cases h
      refine ⟨hcut1, ?_⟩
      rw [parseSection_of_cuttable hcut1] at h
      by_cases horder1 : InOrder mktime sec1
      · simp only [if_pos horder1] at h
        by_cases hcompare : timeCompare mktime (colons (after sec0)) (colons (before sec1)) = true
        · simp only [hcompare, Bool.not_true, Bool.false_eq_true, if_false] at h
          cases h
          exact .inr ⟨horder1, rfl, (if_pos hcompare).symm⟩
        · simp only [hcompare, Bool.not_false, if_true] at h
          cases h
          exact .inr ⟨horder1, rfl, (if_neg hcompare).symm⟩
      · simp only [if_neg horder1] at h
        cases h
        exact .inl ⟨horder1, rfl, rfl⟩
  · simp only [if_neg horder0] at h
    cases h
    exact .inl ⟨horder0, rfl, rfl⟩

-- No position is wrong exactly when all sections that are cut have four characters on each side of
-- the first '-'. The second section is cut only behind a first one that is accepted.
theorem parseTimeSection_returns_iff (mktime : Tm → Int) (sec0 sec1 : String) (w : Windows) :
    (∃ r w', parseTimeSection mktime sec0 sec1 w = some (r, w') ∧ (r = -1 ∨ r = 1 ∨ r = 2)) ↔
      Cuttable sec0 ∧ (InOrder mktime sec0 → sec1 = "" ∨ Cuttable sec1) := by
  unfold parseTimeSection
  by_cases hcut : Cuttable sec0
  · rw [parseSection_of_cuttable hcut]
    by_cases horder : InOrder mktime sec0
    · simp only [horder, if_true, hcut, true_and, true_imp_iff]
      by_cases hone : sec1 = ""
      · simp [hone]
      · by_cases hcut1 : Cuttable sec1
        · rw [parseSection_of_cuttable hcut1]
          simp only [hone, if_false, hcut1, or_true, iff_true]
          split
          · rename_i hnone
            cases hnone
          · exact ⟨-1, _, rfl, .inl rfl⟩
          · split
            · exact ⟨-1, _, rfl, .inl rfl⟩
            · exact ⟨2, _, rfl, .inr (.inr rfl)⟩
        · simp [parseSection_eq_none_iff.mpr hcut1, hone, hcut1]
    · simp [horder, hcut]
  · simp [parseSection_eq_none_iff.mpr hcut, hcut]

-- A single character before the '-'.
theorem parseTimeSection_throws :
    ¬ ∀ sec0 sec1 : String, ∀ w : Windows,
      ∃ r w', parseTimeSection (fun tm => tm.seconds) sec0 sec1 w = some (r, w') ∧
        (r = -1 ∨ r = 1 ∨ r = 2) := by
  intro h
  obtain ⟨r, w', hout, -⟩ := h "8-12" "" {}
  rw [show parseTimeSection (fun tm => tm.seconds) "8-12" "" {} = none by decide +kernel] at hout
  cases hout

end Parsing

end VideoAdapter.Adapter

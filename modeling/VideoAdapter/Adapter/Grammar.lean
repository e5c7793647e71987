import VideoAdapter.Adapter.Sections

namespace VideoAdapter.Adapter

open Lib

section Reading

-- Two characters in front of a colon: two digits in range, or white space and a digit.
def readField (limit : Nat) (c d : Char) : Option Nat :=
  if !d.isDigit then none
  else if c.isDigit then
    let n := (c.toNat - 48) * 10 + (d.toNat - 48)
    if n ≤ limit then some n else none
  else if isSpace c then some (d.toNat - 48)
  else none

-- What is read of the text on one side of the '-'. Nothing is asked of the end of the text.
def readTime : List Char → Option Tm
  | c :: d :: c' :: d' :: tail => do
      let hour ← readField 23 c d
      let min ← readField 59 c' d'
      let sec ← getNumber 61 tail
      return { hour, min, sec := sec.1 }
  | _ => none

theorem digit_bounds {c : Char} (h : c.isDigit = true) : 48 ≤ c.toNat ∧ c.toNat ≤ 57 := by
  simp only [Char.isDigit, Bool.and_eq_true, decide_eq_true_eq] at h
  exact ⟨h.1, h.2⟩

theorem isSpace_of_isDigit {c : Char} (h : c.isDigit = true) : isSpace c = false := by
  obtain ⟨hlow, hhigh⟩ := digit_bounds h
  have hne : c ≠ ' ' := by
    rintro rfl
    exact absurd hlow (by decide)
  simp only [isSpace, hne, false_or, decide_eq_false_iff_not]
  omega

theorem isDigit_colon : Char.isDigit ':' = false := by decide

theorem getNumber_space {limit : Nat} {c : Char} (hc : isSpace c = true) (rest : List Char) :
    getNumber limit (c :: rest) = getNumber limit rest := by
  unfold getNumber
  rw [List.dropWhile_cons_of_pos hc]

theorem getNumber_other {limit : Nat} {c : Char} (hc : c.isDigit = false) (hspace : isSpace c = false)
    (rest : List Char) : getNumber limit (c :: rest) = none := by
  simp [getNumber, hspace, hc]

theorem getNumber_colon (limit : Nat) (rest : List Char) : getNumber limit (':' :: rest) = none :=
  getNumber_other isDigit_colon (by decide) rest

theorem getNumber_one {limit : Nat} (h9 : 9 ≤ limit) {c e : Char} (hc : c.isDigit = true)
    (he : e.isDigit = false) (rest : List Char) :
    getNumber limit (c :: e :: rest) = some (c.toNat - 48, e :: rest) := by
  obtain ⟨-, hhigh⟩ := digit_bounds hc
  have hle : c.toNat - 48 ≤ limit := by omega
  simp [getNumber, isSpace_of_isDigit hc, hc, he, hle]

theorem getNumber_two {limit : Nat} {c d : Char} (hc : c.isDigit = true) (hd : d.isDigit = true)
    (hn : (c.toNat - 48) * 10 + (d.toNat - 48) ≤ limit) (rest : List Char) :
    getNumber limit (c :: d :: rest) = some ((c.toNat - 48) * 10 + (d.toNat - 48), rest) := by
  have hten : (c.toNat - 48) * 10 ≤ limit := by omega
  simp [getNumber, isSpace_of_isDigit hc, hc, hd, hten, hn]

-- A second digit that leaves the range is refused, or left where it is.
theorem getNumber_two_large {limit : Nat} {c d : Char} (hc : c.isDigit = true)
    (hd : d.isDigit = true) (hn : ¬ (c.toNat - 48) * 10 + (d.toNat - 48) ≤ limit) (rest : List Char) :
    getNumber limit (c :: d :: rest) = none ∨
      getNumber limit (c :: d :: rest) = some (c.toNat - 48, d :: rest) := by
  by_cases hten : (c.toNat - 48) * 10 ≤ limit
  · simp [getNumber, isSpace_of_isDigit hc, hc, hd, hten, hn]
  · by_cases hone : c.toNat - 48 ≤ limit
    · simp [getNumber, isSpace_of_isDigit hc, hc, hten, hone]
    · simp [getNumber, isSpace_of_isDigit hc, hc, hten, hone]

-- A number and the colon behind it.
def getField (limit : Nat) (rp : List Char) : Option (Nat × List Char) :=
  (getNumber limit rp).bind fun n => (matchColon n.2).map fun rest => (n.1, rest)

theorem strptime_eq_fields (s : String) :
    strptime s = (getField 23 s.toList).bind fun hour => (getField 59 hour.2).bind fun min =>
      (getNumber 61 min.2).map fun sec => { hour := hour.1, min := min.1, sec := sec.1 } := by
  simp only [strptime, getField, Option.bind_eq_bind, Option.pure_def, Option.bind_assoc,
    Option.map_eq_bind, Function.comp_def, Option.bind_some]

-- A field of two characters is read as a whole, or the colon inside it is taken for the one that
-- ends it, and then the next field begins with a colon.
theorem getField_pair {limit : Nat} (h9 : 9 ≤ limit) (c d : Char) (rest : List Char) :
    (∃ n, readField limit c d = some n ∧ getField limit (c :: d :: ':' :: rest) = some (n, rest)) ∨
      readField limit c d = none ∧ (getField limit (c :: d :: ':' :: rest) = none ∨
        ∃ n, getField limit (c :: d :: ':' :: rest) = some (n, ':' :: rest)) := by
  cases hd : d.isDigit with
  | true =>
      have hdc : d ≠ ':' := by
        rintro rfl
        exact absurd hd (by decide)
      cases hc : c.isDigit with
      | true =>
          by_cases hn : (c.toNat - 48) * 10 + (d.toNat - 48) ≤ limit
          · refine .inl ⟨(c.toNat - 48) * 10 + (d.toNat - 48), by simp [readField, hc, hd, hn], ?_⟩
            simp [getField, getNumber_two hc hd hn, matchColon]
          · refine .inr ⟨by simp [readField, hc, hd, hn], .inl ?_⟩
            rcases getNumber_two_large hc hd hn (':' :: rest) with h | h
            · simp [getField, h]
            · simp [getField, h, matchColon, hdc]
      | false =>
          cases hspace : isSpace c with
          | true =>
              refine .inl ⟨d.toNat - 48, by simp [readField, hc, hd, hspace], ?_⟩
              simp [getField, getNumber_space hspace, getNumber_one h9 hd isDigit_colon, matchColon]
          | false =>
              refine .inr ⟨by simp [readField, hc, hd, hspace], .inl ?_⟩
              simp [getField, getNumber_other hc hspace]
  | false =>
      refine .inr ⟨by simp [readField, hd], ?_⟩
      cases hc : c.isDigit with
      | true =>
          by_cases hdc : d = ':'
          · subst hdc
            exact .inr ⟨c.toNat - 48, by simp [getField, getNumber_one h9 hc hd, matchColon]⟩
          · left
            simp [getField, getNumber_one h9 hc hd, matchColon, hdc]
      | false =>
          left
          cases hspace : isSpace c with
          | true =>
              have hnone : getNumber limit (d :: ':' :: rest) = none := by
                cases hspace' : isSpace d with
                | true => rw [getNumber_space hspace', getNumber_colon]
                | false => exact getNumber_other hd hspace' _
              simp [getField, getNumber_space hspace, hnone]
          | false => simp [getField, getNumber_other hc hspace]

theorem getField_colon (limit : Nat) (rest : List Char) : getField limit (':' :: rest) = none := by
  simp [getField, getNumber_colon]

-- The text with its colons is read field by field.
theorem strptime_colons {cs : List Char} (h : 4 ≤ cs.length) : strptime (colons cs) = readTime cs := by
  match cs, h with
  | c :: d :: c' :: d' :: tail, _ =>
      have htext : (colons (c :: d :: c' :: d' :: tail)).toList =
          c :: d :: ':' :: c' :: d' :: ':' :: tail := by
        simp [colons]
      rw [strptime_eq_fields, htext]
      simp only [readTime, Option.bind_eq_bind, Option.pure_def]
      rcases getField_pair (by decide : 9 ≤ 23) c d (c' :: d' :: ':' :: tail) with
        ⟨hour, hread, hget⟩ | ⟨hread, hget | ⟨n, hget⟩⟩
      · rcases getField_pair (by decide : 9 ≤ 59) c' d' tail with
          ⟨min, hread', hget'⟩ | ⟨hread', hget' | ⟨n, hget'⟩⟩
        · simp only [hread, hget, hread', hget', Option.bind_some]
          cases getNumber 61 tail with
          | none => rfl
          | some sec => rfl
        · simp only [hread, hget, hread', hget', Option.bind_some, Option.bind_none]
        · simp only [hread, hget, hread', hget', Option.bind_some, Option.bind_none, getNumber_colon,
            Option.map_none]
      · simp only [hread, hget, Option.bind_none]
      · simp only [hread, hget, Option.bind_some, Option.bind_none, getField_colon]

-- HHMMSS
structure Stamp (cs : List Char) (tm : Tm) : Prop where
  text : cs = twoDigits tm.hour ++ (twoDigits tm.min ++ twoDigits tm.sec)
  hour_lt : tm.hour < 24
  min_lt : tm.min < 60
  sec_lt : tm.sec < 60

-- HH:MM:SS
def Tm.clock (tm : Tm) : String :=
  String.ofList (twoDigits tm.hour ++ ':' :: (twoDigits tm.min ++ ':' :: twoDigits tm.sec))

-- Six digits, the fifth below six.
def SixDigits (cs : List Char) : Prop :=
  cs.length = 6 ∧ (∀ c ∈ cs, c.isDigit = true) ∧ (cs.getD 4 '0').toNat < '6'.toNat

instance (cs : List Char) : Decidable (SixDigits cs) :=
  letI := List.decidableBAll (fun c : Char => c.isDigit = true) cs
  inferInstanceAs (Decidable (_ ∧ _ ∧ _))

theorem readField_twoDigits {limit n : Nat} (hn : n ≤ limit) (hsmall : n < 100) :
    ∃ c d, twoDigits n = [c, d] ∧ readField limit c d = some n := by
  obtain ⟨htens, hvalue, -⟩ := digit_digitChar (d := n / 10) (by omega)
  obtain ⟨hones, hvalue', -⟩ := digit_digitChar (d := n % 10) (by omega)
  have hsum : n / 10 * 10 + n % 10 = n := by omega
  exact ⟨_, _, rfl, by simp only [readField, htens, hones, hvalue, hvalue', hsum, hn, Bool.not_true,
    Bool.false_eq_true, if_false, if_true]⟩

theorem twoDigits_of_digits {c d : Char} (hc : c.isDigit = true) (hd : d.isDigit = true) :
    twoDigits ((c.toNat - 48) * 10 + (d.toNat - 48)) = [c, d] := by
  obtain ⟨hlow, hhigh⟩ := digit_bounds hc
  obtain ⟨hlow', hhigh'⟩ := digit_bounds hd
  have htens : 48 + ((c.toNat - 48) * 10 + (d.toNat - 48)) / 10 = c.toNat := by omega
  have hones : 48 + ((c.toNat - 48) * 10 + (d.toNat - 48)) % 10 = d.toNat := by omega
  rw [twoDigits, htens, hones, Char.ofNat_toNat, Char.ofNat_toNat]

theorem readField_digits {limit : Nat} {c d : Char} (hc : c.isDigit = true) (hd : d.isDigit = true)
    {n : Nat} (h : readField limit c d = some n) : n ≤ limit ∧ twoDigits n = [c, d] := by
  simp only [readField, hc, hd, Bool.not_true, Bool.false_eq_true, if_false, if_true] at h
  split at h
  · rename_i hle
    cases h
    exact ⟨hle, twoDigits_of_digits hc hd⟩
  · cases h

theorem Stamp.readTime {cs : List Char} {tm : Tm} (h : Stamp cs tm) : readTime cs = some tm := by
  have hh := h.hour_lt
  have hm := h.min_lt
  have hs := h.sec_lt
  obtain ⟨c, d, htext, hhour⟩ := readField_twoDigits (show tm.hour ≤ 23 by omega) (by omega)
  obtain ⟨c', d', htext', hmin⟩ := readField_twoDigits (show tm.min ≤ 59 by omega) (by omega)
  have hsec : getNumber 61 (twoDigits tm.sec) = some (tm.sec, []) := by
    simpa using getNumber_twoDigits (show tm.sec ≤ 61 by omega) (by omega) []
  rw [h.text, htext, htext']
  simp only [List.cons_append, List.nil_append, Adapter.readTime, hhour, hmin, hsec,
    Option.bind_eq_bind, Option.pure_def, Option.bind_some]

theorem mem_twoDigits {n : Nat} (hn : n < 100) {c : Char} (h : c ∈ twoDigits n) : c.isDigit = true := by
  rcases List.mem_cons.mp h with rfl | h
  · exact (digit_digitChar (by omega)).1
  · rw [List.mem_singleton.mp h]
    exact (digit_digitChar (by omega)).1

theorem Stamp.sixDigits {cs : List Char} {tm : Tm} (h : Stamp cs tm) : SixDigits cs := by
  have hh := h.hour_lt
  have hm := h.min_lt
  have hs := h.sec_lt
  have hfifth : ∀ d < 6, (Char.ofNat (48 + d)).toNat < '6'.toNat := by decide
  rw [h.text]
  refine ⟨rfl, fun c hc => ?_, hfifth (tm.sec / 10) (by omega)⟩
  rcases List.mem_append.mp hc with hc | hc
  · exact mem_twoDigits (by omega) hc
  · rcases List.mem_append.mp hc with hc | hc
    · exact mem_twoDigits (by omega) hc
    · exact mem_twoDigits (by omega) hc

-- What is read from no more than six digits is what stands there.
theorem stamp_of_sixDigits {cs : List Char} {tm : Tm} (h : readTime cs = some tm)
    (hsix : SixDigits cs) : Stamp cs tm := by
  obtain ⟨hlen, hdigits, hfifth⟩ := hsix
  match cs, hlen with
  | [c, d, c', d', e, f], _ =>
      have he : e.isDigit = true := hdigits e (by simp)
      have hf : f.isDigit = true := hdigits f (by simp)
      have hsmall : e.toNat < 54 := hfifth
      obtain ⟨-, hhigh⟩ := digit_bounds hf
      have hsec := getNumber_two he hf (show _ ≤ 61 by omega) []
      simp only [readTime, hsec, Option.bind_eq_bind, Option.pure_def, Option.bind_eq_some_iff,
        Option.some.injEq] at h
      obtain ⟨hour, hhour, min, hmin, sec, rfl, rfl⟩ := h
      obtain ⟨hhle, htext⟩ := readField_digits (hdigits c (by simp)) (hdigits d (by simp)) hhour
      obtain ⟨hmle, htext'⟩ := readField_digits (hdigits c' (by simp)) (hdigits d' (by simp)) hmin
      refine ⟨?_, ?_, ?_, ?_⟩
      · rw [htext, htext', twoDigits_of_digits he hf]
        rfl
      · exact Nat.lt_succ_of_le hhle
      · exact Nat.lt_succ_of_le hmle
      · dsimp only
        omega

theorem Stamp.colons {cs : List Char} {tm : Tm} (h : Stamp cs tm) : colons cs = tm.clock := by
  rw [h.text]
  rfl

-- HHMMSS-HHMMSS with the start not after the end
def Grammar (sec : String) (tmS tmE : Tm) : Prop :=
  ∃ a b, sec.toList = a ++ '-' :: b ∧ Stamp a tmS ∧ Stamp b tmE ∧ tmS.seconds ≤ tmE.seconds

-- The two times that are read on the sides of the '-'.
structure ReadsAs (sec : String) (tmS tmE : Tm) : Prop where
  dash : dash sec ≠ -1
  start : readTime (before sec) = some tmS
  stop : readTime (after sec) = some tmE
  ordered : tmS.seconds ≤ tmE.seconds

-- Six digits on both sides.
def Tight (sec : String) : Prop := SixDigits (before sec) ∧ SixDigits (after sec)

instance (sec : String) : Decidable (Tight sec) := inferInstanceAs (Decidable (_ ∧ _))

theorem grammar_iff {sec : String} {tmS tmE : Tm} :
    Grammar sec tmS tmE ↔ ReadsAs sec tmS tmE ∧ Tight sec := by
  constructor
  · rintro ⟨a, b, hsec, ha, hb, hle⟩
    obtain ⟨hlena, hdigits, -⟩ := ha.sixDigits
    obtain ⟨hlenb, -⟩ := hb.sixDigits
    have hnot : '-' ∉ a := fun h => absurd (hdigits _ h) (by decide)
    have hlen : sec.length = 13 := by
      rw [← String.length_toList, hsec]
      simp [hlena, hlenb]
    obtain ⟨hdash, hbefore, hafter⟩ := sides_of_split hsec hnot (by omega)
    refine ⟨⟨by omega, ?_, ?_, hle⟩, ?_, ?_⟩
    · rw [hbefore, ha.readTime]
    · rw [hafter, hb.readTime]
    · rw [hbefore]
      exact ha.sixDigits
    · rw [hafter]
      exact hb.sixDigits
  · rintro ⟨hreads, hbefore, hafter⟩
    -- with six characters on each side there is no longer text
    have hlen : sec.length < 2 ^ 31 := by
      have hb := hbefore.1
      have ha := hafter.1
      rw [before, List.length_take, String.length_toList] at hb
      rw [after, List.length_drop, String.length_toList] at ha
      omega
    exact ⟨before sec, after sec, (split_at_dash hlen hreads.dash).1,
      stamp_of_sixDigits hreads.start hbefore, stamp_of_sixDigits hreads.stop hafter, hreads.ordered⟩

end Reading

section Accepting

variable {mktime : Tm → Int}

theorem lengths_of_cuttable {sec : String} (hcut : Cuttable sec) (hdash : dash sec ≠ -1) :
    4 ≤ (before sec).length ∧ 4 ≤ (after sec).length := by
  obtain ⟨hfour, -, hrest⟩ := hcut.resolve_left hdash
  rw [before, after, List.length_take, List.length_drop, String.length_toList]
  omega

-- The check of a section that is cut, in terms of its text.
theorem inOrder_iff (hmk : Increasing mktime) {sec : String} (hcut : Cuttable sec) :
    InOrder mktime sec ↔ ∃ tmS tmE, ReadsAs sec tmS tmE := by
  constructor
  · rintro ⟨hdash, hcompare⟩
    obtain ⟨hb, ha⟩ := lengths_of_cuttable hcut hdash
    obtain ⟨tmS, tmE, hS, hE, hle⟩ := (timeCompare_iff hmk _ _).mp hcompare
    rw [strptime_colons hb] at hS
    rw [strptime_colons ha] at hE
    exact ⟨tmS, tmE, hdash, hS, hE, hle⟩
  · rintro ⟨tmS, tmE, hdash, hS, hE, hle⟩
    obtain ⟨hb, ha⟩ := lengths_of_cuttable hcut hdash
    refine ⟨hdash, (timeCompare_iff hmk _ _).mpr ⟨tmS, tmE, ?_, ?_, hle⟩⟩
    · rw [strptime_colons hb, hS]
    · rw [strptime_colons ha, hE]

theorem parseTimeSection_eq_one_iff (hmk : Increasing mktime) {sec0 sec1 : String} {w w' : Windows}
    {r : Int} (h : parseTimeSection mktime sec0 sec1 w = some (r, w')) :
    r = 1 ↔ sec1 = "" ∧ ∃ a b, ReadsAs sec0 a b := by
  obtain ⟨hcut0, h⟩ := parseTimeSection_cases h
  rw [inOrder_iff hmk hcut0] at h
  rcases h with ⟨hnot, rfl, -⟩ | ⟨hreads, ⟨hone, rfl, -⟩ | ⟨hone, -, ⟨-, rfl, -⟩ | ⟨-, -, rfl⟩⟩⟩
  · exact iff_of_false (by decide) fun hr => hnot hr.2
  · exact iff_of_true rfl ⟨hone, hreads⟩
  · exact iff_of_false (by decide) fun hr => hone hr.1
  · refine iff_of_false ?_ fun hr => hone hr.1
    split <;> decide

theorem not_readsAs_empty {a b : Tm} : ¬ ReadsAs "" a b := fun h => h.dash (by decide)

theorem parseTimeSection_eq_two_iff (hmk : Increasing mktime) {sec0 sec1 : String} {w w' : Windows}
    {r : Int} (h : parseTimeSection mktime sec0 sec1 w = some (r, w')) :
    r = 2 ↔ ∃ a b c d, ReadsAs sec0 a b ∧ ReadsAs sec1 c d ∧ b.seconds ≤ c.seconds := by
  obtain ⟨hcut0, h⟩ := parseTimeSection_cases h
  rw [inOrder_iff hmk hcut0] at h
  rcases h with ⟨hnot, rfl, -⟩ | ⟨⟨a, b, hreads⟩, ⟨rfl, rfl, -⟩ | ⟨hone, hcut1, hrest⟩⟩
  · exact iff_of_false (by decide) fun ⟨a, b, _, _, hreads, _⟩ => hnot ⟨a, b, hreads⟩
  · exact iff_of_false (by decide) fun ⟨_, _, _, _, _, hempty, _⟩ => not_readsAs_empty hempty
  · rw [inOrder_iff hmk hcut1] at hrest
    rcases hrest with ⟨hnot, rfl, -⟩ | ⟨⟨c, d, hreads'⟩, -, rfl⟩
    · exact iff_of_false (by decide) fun ⟨_, _, c, d, _, hreads', _⟩ => hnot ⟨c, d, hreads'⟩
    · have hstop := hreads.stop
      have hstart := hreads'.start
      rw [← strptime_colons (lengths_of_cuttable hcut0 hreads.dash).2] at hstop
      rw [← strptime_colons (lengths_of_cuttable hcut1 hreads'.dash).1] at hstart
      have hcompare : timeCompare mktime (colons (after sec0)) (colons (before sec1)) = true ↔
          b.seconds ≤ c.seconds := by
        rw [timeCompare_iff hmk, hstop, hstart]
        simp
      have hpair : (∃ a b c d, ReadsAs sec0 a b ∧ ReadsAs sec1 c d ∧ b.seconds ≤ c.seconds) ↔
          b.seconds ≤ c.seconds := by
        constructor
        · rintro ⟨a', b', c', d', h0, h1, hle⟩
          obtain rfl : b' = b := Option.some.inj (h0.stop.symm.trans hreads.stop)
          obtain rfl : c' = c := Option.some.inj (h1.start.symm.trans hreads'.start)
          exact hle
        · exact fun hle => ⟨a, b, c, d, hreads, hreads', hle⟩
      rw [hpair, ← hcompare]
      split
      · rename_i htrue
        exact iff_of_true rfl htrue
      · rename_i hfalse
        exact iff_of_false (by decide) hfalse

theorem Grammar.colons {sec : String} {a b : Tm} (h : Grammar sec a b) :
    colons (before sec) = a.clock ∧ colons (after sec) = b.clock := by
  obtain ⟨hreads, hbefore, hafter⟩ := grammar_iff.mp h
  exact ⟨(stamp_of_sixDigits hreads.start hbefore).colons,
    (stamp_of_sixDigits hreads.stop hafter).colons⟩

-- The answer of the parser is the one the grammar gives.
structure AcceptsGrammar (sec0 sec1 : String) (r : Int) (w : Windows) : Prop where
  one : r = 1 ↔ sec1 = "" ∧ ∃ a b, Grammar sec0 a b
  two : r = 2 ↔ ∃ a b c d, Grammar sec0 a b ∧ Grammar sec1 c d ∧ b.seconds ≤ c.seconds
  first : r = 1 ∨ r = 2 → ∃ a b, Grammar sec0 a b ∧ w.s0 = a.clock ∧ w.e0 = b.clock
  second : r = 2 → ∃ c d, Grammar sec1 c d ∧ w.s1 = c.clock ∧ w.e1 = d.clock

-- The parser keeps to the grammar exactly on texts that have nothing but six digits on each side
-- of the '-' of a section that is read.
theorem parseTimeSection_grammar_iff (hmk : Increasing mktime) (sec0 sec1 : String) (w w' : Windows)
    (r : Int) (h : parseTimeSection mktime sec0 sec1 w = some (r, w')) :
    AcceptsGrammar sec0 sec1 r w' ↔
      (sec1 = "" → ∀ a b, ReadsAs sec0 a b → Tight sec0) ∧
      ∀ a b c d, ReadsAs sec0 a b → ReadsAs sec1 c d → b.seconds ≤ c.seconds → Tight sec0 ∧ Tight sec1 := by
  have hone := parseTimeSection_eq_one_iff hmk h
  have htwo := parseTimeSection_eq_two_iff hmk h
  constructor
  · intro hgrammar
    refine ⟨fun hempty a b hreads => ?_, fun a b c d hreads hreads' hle => ?_⟩
    · obtain ⟨-, a', b', hfirst⟩ := hgrammar.one.mp (hone.mpr ⟨hempty, a, b, hreads⟩)
      exact (grammar_iff.mp hfirst).2
    · obtain ⟨_, _, _, _, hfirst, hsecond, -⟩ :=
        hgrammar.two.mp (htwo.mpr ⟨a, b, c, d, hreads, hreads', hle⟩)
      exact ⟨(grammar_iff.mp hfirst).2, (grammar_iff.mp hsecond).2⟩
  · rintro ⟨htight, htight'⟩
    have hone' : r = 1 ↔ sec1 = "" ∧ ∃ a b, Grammar sec0 a b := by
      rw [hone]
      constructor
      · rintro ⟨hempty, a, b, hreads⟩
        exact ⟨hempty, a, b, grammar_iff.mpr ⟨hreads, htight hempty a b hreads⟩⟩
      · rintro ⟨hempty, a, b, hfirst⟩
        exact ⟨hempty, a, b, (grammar_iff.mp hfirst).1⟩
    have htwo' : r = 2 ↔ ∃ a b c d, Grammar sec0 a b ∧ Grammar sec1 c d ∧ b.seconds ≤ c.seconds := by
      rw [htwo]
      constructor
      · rintro ⟨a, b, c, d, hreads, hreads', hle⟩
        obtain ⟨h0, h1⟩ := htight' a b c d hreads hreads' hle
        exact ⟨a, b, c, d, grammar_iff.mpr ⟨hreads, h0⟩, grammar_iff.mpr ⟨hreads', h1⟩, hle⟩
      · rintro ⟨a, b, c, d, hfirst, hsecond, hle⟩
        exact ⟨a, b, c, d, (grammar_iff.mp hfirst).1, (grammar_iff.mp hsecond).1, hle⟩
    refine ⟨hone', htwo', fun hr => ?_, fun hr => ?_⟩
    · have hfirst : ∃ a b, Grammar sec0 a b := by
        rcases hr with hr | hr
        · exact (hone'.mp hr).2
        · obtain ⟨a, b, _, _, hfirst, -⟩ := htwo'.mp hr
          exact ⟨a, b, hfirst⟩
      obtain ⟨a, b, hfirst⟩ := hfirst
      obtain ⟨hs, he⟩ := hfirst.colons
      rcases (parseTimeSection_cases h).2 with ⟨-, rfl, -⟩ |
        ⟨-, ⟨-, -, rfl⟩ | ⟨-, -, ⟨-, -, rfl⟩ | ⟨-, rfl, -⟩⟩⟩
      · omega
      · exact ⟨a, b, hfirst, hs, he⟩
      · exact ⟨a, b, hfirst, hs, he⟩
      · exact ⟨a, b, hfirst, hs, he⟩
    · obtain ⟨_, _, c, d, -, hsecond, -⟩ := htwo'.mp hr
      obtain ⟨hs, he⟩ := hsecond.colons
      rcases (parseTimeSection_cases h).2 with ⟨-, rfl, -⟩ |
        ⟨-, ⟨-, rfl, -⟩ | ⟨-, -, ⟨-, rfl, -⟩ | ⟨-, rfl, -⟩⟩⟩
      · omega
      · omega
      · omega
      · exact ⟨c, d, hsecond, hs, he⟩

theorem increasing_seconds : Increasing fun tm => (tm.seconds : Int) := fun _ _ => Int.ofNat_le

-- A morning and an afternoon, in the form of the grammar.
theorem parseTimeSection_grammar_two :
    AcceptsGrammar "080000-120000" "133000-170000" 2 workingHours :=
  (parseTimeSection_grammar_iff increasing_seconds "080000-120000" "133000-170000" {} workingHours 2
    (by decide +kernel)).mpr
    ⟨fun _ _ _ _ => by decide +kernel, fun _ _ _ _ _ _ _ => by decide +kernel⟩

-- Text behind the seconds is accepted and stored.
theorem parseTimeSection_lenient :
    parseTimeSection (fun tm => tm.seconds) "080000-120000x" "" {} =
        some (1, { s0 := "08:00:00", e0 := "12:00:00x" }) ∧
      ¬ AcceptsGrammar "080000-120000x" "" 1 { s0 := "08:00:00", e0 := "12:00:00x" } := by
  refine ⟨by decide +kernel, fun hgrammar => ?_⟩
  obtain ⟨-, a, b, h⟩ := hgrammar.one.mp rfl
  exact absurd (grammar_iff.mp h).2 (by decide +kernel)

end Accepting

end VideoAdapter.Adapter

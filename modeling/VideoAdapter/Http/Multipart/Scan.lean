import VideoAdapter.Http.Multipart

namespace VideoAdapter.Http

namespace MultipartParser

variable {Data : Type*} {on : Data → Notice → Data × Int}

-- The parser gets over the text from one place to another, when more bytes come behind it.
def Reads (on : Data → Notice → Data × Int) (cur : Cursor Data) (text : Str) (next : Cursor Data) :
    Prop :=
  ∀ (rest : Str) (i : Nat), rest ≠ [] →
    execute on cur (text ++ rest) i = execute on next rest (i + text.length)

theorem Reads.refl (cur : Cursor Data) : Reads on cur [] cur := fun _ _ _ => rfl

theorem Reads.trans {a b c : Cursor Data} {s t : Str} (h : Reads on a s b) (h' : Reads on b t c) :
    Reads on a (s ++ t) c := by
  intro rest i hrest
  have hmore : t ++ rest ≠ [] := by simp [hrest]
  rw [List.append_assoc, h _ _ hmore, h' _ _ hrest, List.length_append, Nat.add_assoc]

theorem Reads.cons {a b c : Cursor Data} {x : Char} {t : Str} (hs : step on a x false = .ok b)
    (h : Reads on b t c) : Reads on a (x :: t) c := by
  intro rest i hrest
  have hempty : (t ++ rest).isEmpty = false := by
    rw [List.isEmpty_eq_false_iff]
    simp [hrest]
  rw [List.cons_append, execute, hempty]
  simp only [hs]
  rw [h _ _ hrest, List.length_cons]
  congr 1
  omega

-- Two places that do the same with the next byte.
theorem Reads.of_step {a b c : Cursor Data} {x : Char} {t : Str}
    (hs : step on a x false = step on b x false) (h : Reads on b (x :: t) c) :
    Reads on a (x :: t) c := by
  intro rest i hrest
  have hempty : (t ++ rest).isEmpty = false := by
    rw [List.isEmpty_eq_false_iff]
    simp [hrest]
  have hnext := h rest i hrest
  rw [List.cons_append, execute, hempty] at hnext ⊢
  rw [hs]
  exact hnext

section Boundary

variable {b : Str} {data : Data} {marked lookbehind : Str}

theorem reads_boundary {before after : Str} (hb : b = before ++ after) :
    Reads on ⟨⟨b, before.length, .sStartBoundary, lookbehind⟩, data, marked⟩ after
      ⟨⟨b, b.length, .sStartBoundary, lookbehind⟩, data, marked⟩ := by
  induction after generalizing before with
  | nil =>
      rw [hb, List.append_nil]
      exact .refl _
  | cons c rest ih =>
      have hnext : b = (before ++ [c]) ++ rest := by
        rw [hb]
        simp
      have hlength : b.length = before.length + (rest.length + 1) := by
        rw [hb, List.length_append, List.length_cons]
      have hc : b[before.length]? = some c := by
        rw [hb]
        simp
      refine .cons ?_ (ih hnext)
      simp only [step, startBoundary]
      rw [if_neg (by omega), if_neg (by omega), if_pos hc, List.length_append, List.length_singleton]

-- The first boundary.
theorem reads_start :
    Reads on ⟨⟨b, 0, .sStartBoundary, lookbehind⟩, data, marked⟩ b
      ⟨⟨b, b.length, .sStartBoundary, lookbehind⟩, data, marked⟩ :=
  @reads_boundary _ on b data marked lookbehind [] b rfl

variable {index : Nat}

-- Behind the first boundary, and behind a later one.
theorem reads_firstEnd (hon : on data .partDataBegin = (data, 0)) :
    Reads on ⟨⟨b, b.length, .sStartBoundary, lookbehind⟩, data, marked⟩ [CR, LF]
      ⟨⟨b, 0, .sHeaderFieldStart, lookbehind⟩, data, marked⟩ := by
  refine .cons (b := ⟨⟨b, b.length + 1, .sStartBoundary, lookbehind⟩, data, marked⟩) ?_
    (.cons ?_ (.refl _))
  · simp [step, startBoundary]
  · simp [step, startBoundary, notify, hon, goto, Except.map]

theorem reads_boundaryEnd (hon : on data .partDataBegin = (data, 0)) :
    Reads on ⟨⟨b, index, .sPartDataAlmostEnd, lookbehind⟩, data, marked⟩ [CR, LF]
      ⟨⟨b, index, .sHeaderFieldStart, lookbehind⟩, data, marked⟩ := by
  refine .cons (b := ⟨⟨b, index, .sPartDataEnd, lookbehind⟩, data, marked⟩) ?_ (.cons ?_ (.refl _))
  · simp [step, goto, CR]
  · simp [step, notify, hon, goto]

-- Behind the last one everything is passed over.
theorem execute_end (rest : Str) (i : Nat) :
    execute on ⟨⟨b, index, .sEnd, lookbehind⟩, data, marked⟩ rest i = (data, i + rest.length) := by
  induction rest generalizing i with
  | nil => rfl
  | cons c rest ih =>
      rw [execute]
      simp only [step]
      rw [ih, List.length_cons]
      congr 1
      omega

theorem execute_last {final : Data} (hon : on data .bodyEnd = (final, 0)) (rest : Str) (i : Nat) :
    execute on ⟨⟨b, index, .sPartDataAlmostEnd, lookbehind⟩, data, marked⟩ ('-' :: '-' :: rest) i =
      (final, i + ('-' :: '-' :: rest).length) := by
  rw [execute]
  simp only [step, if_true, goto]
  rw [execute]
  simp only [step, if_true, notify, hon, goto, Except.map]
  rw [execute_end, List.length_cons, List.length_cons]
  congr 1
  omega

end Boundary

section Headers

variable {b : Str} {data : Data} {marked lookbehind : Str} {index : Nat}

-- The bytes that the parser takes in the name of a header.
def FieldByte (c : Char) : Prop := c = '-' ∨ 'a' ≤ c.toLower ∧ c.toLower ≤ 'z'

instance (c : Char) : Decidable (FieldByte c) :=
  inferInstanceAs (Decidable (c = '-' ∨ 'a' ≤ c.toLower ∧ c.toLower ≤ 'z'))

theorem headerField_of_fieldByte {cur : Cursor Data} {c : Char} (hc : FieldByte c) :
    headerField on cur c false = .ok { cur with marked := cur.marked ++ [c] } := by
  have hcr : c ≠ CR := by
    rintro rfl
    revert hc
    decide
  have hcolon : c ≠ ':' := by
    rintro rfl
    revert hc
    decide
  have hbyte : ¬ (c ≠ '-' ∧ (c.toLower < 'a' ∨ 'z' < c.toLower)) := by
    rintro ⟨hne, hout⟩
    obtain ⟨hlow, hhigh⟩ := hc.resolve_left hne
    rcases hout with hout | hout
    · exact Char.not_le.mpr hout hlow
    · exact Char.not_le.mpr hout hhigh
  rw [headerField, if_neg hcr, if_neg hcolon, if_neg hbyte, if_neg Bool.false_ne_true]

theorem reads_fieldBytes {name : Str} (hname : ∀ c ∈ name, FieldByte c) :
    Reads on ⟨⟨b, index, .sHeaderField, lookbehind⟩, data, marked⟩ name
      ⟨⟨b, index, .sHeaderField, lookbehind⟩, data, marked ++ name⟩ := by
  induction name generalizing marked with
  | nil =>
      rw [List.append_nil]
      exact .refl _
  | cons c rest ih =>
      have hrest := @ih (marked ++ [c]) fun d hd => hname d (List.mem_cons_of_mem _ hd)
      rw [List.append_assoc, List.singleton_append] at hrest
      exact .cons (headerField_of_fieldByte (hname c List.mem_cons_self)) hrest

theorem reads_valueBytes {value : Str} (hvalue : CR ∉ value) :
    Reads on ⟨⟨b, index, .sHeaderValue, lookbehind⟩, data, marked⟩ value
      ⟨⟨b, index, .sHeaderValue, lookbehind⟩, data, marked ++ value⟩ := by
  induction value generalizing marked with
  | nil =>
      rw [List.append_nil]
      exact .refl _
  | cons c rest ih =>
      rw [List.mem_cons, not_or] at hvalue
      have hrest := @ih (marked ++ [c]) hvalue.2
      rw [List.append_assoc, List.singleton_append] at hrest
      refine .cons ?_ hrest
      simp only [step, headerValue]
      rw [if_neg (Ne.symm hvalue.1), if_neg Bool.false_ne_true]

-- The name of a header, up to its value.
theorem reads_name {name : Str} (hname : ∀ c ∈ name, FieldByte c) {named : Data}
    (hon : on data (.headerField name) = (named, 0)) :
    Reads on ⟨⟨b, index, .sHeaderFieldStart, lookbehind⟩, data, marked⟩ (name ++ [':', ' '])
      ⟨⟨b, index, .sHeaderValueStart, lookbehind⟩, named, name⟩ := by
  have hstart : Reads on ⟨⟨b, index, .sHeaderField, lookbehind⟩, data, []⟩ (name ++ [':', ' '])
      ⟨⟨b, index, .sHeaderValueStart, lookbehind⟩, named, name⟩ := by
    have hfield := @reads_fieldBytes _ on b data [] lookbehind index name hname
    rw [List.nil_append] at hfield
    refine hfield.trans (.cons (b := ⟨⟨b, index, .sHeaderValueStart, lookbehind⟩, named, name⟩) ?_
      (.cons ?_ (.refl _)))
    · simp [step, headerField, CR, notify, hon, goto, Except.map]
    · simp [step]
  have hne : name ++ [':', ' '] ≠ [] := by simp
  obtain ⟨c, rest, htext⟩ := List.exists_cons_of_ne_nil hne
  rw [htext] at hstart ⊢
  exact hstart.of_step rfl

theorem reads_value {value : Str} (hvalue : CR ∉ value) (hblank : value.head? ≠ some ' ')
    {valued : Data} (hon : on data (.headerValue value) = (valued, 0)) :
    Reads on ⟨⟨b, index, .sHeaderValueStart, lookbehind⟩, data, marked⟩ (value ++ [CR, LF])
      ⟨⟨b, index, .sHeaderFieldStart, lookbehind⟩, valued, value⟩ := by
  have hstart : Reads on ⟨⟨b, index, .sHeaderValue, lookbehind⟩, data, []⟩ (value ++ [CR, LF])
      ⟨⟨b, index, .sHeaderFieldStart, lookbehind⟩, valued, value⟩ := by
    have hbytes := @reads_valueBytes _ on b data [] lookbehind index value hvalue
    rw [List.nil_append] at hbytes
    refine hbytes.trans (.cons (b := ⟨⟨b, index, .sHeaderValueAlmostDone, lookbehind⟩, valued, value⟩)
      ?_ (.cons ?_ (.refl _)))
    · simp [step, headerValue, notify, hon, goto, Except.map]
    · simp [step, goto]
  have hne : value ++ [CR, LF] ≠ [] := by simp
  obtain ⟨c, rest, htext⟩ := List.exists_cons_of_ne_nil hne
  have hc : c ≠ ' ' := by
    rintro rfl
    cases value with
    | nil => cases htext
    | cons first others =>
        cases htext
        exact hblank rfl
  rw [htext] at hstart ⊢
  refine hstart.of_step ?_
  simp only [step, if_neg hc, goto]

theorem reads_header {name value : Str} (hname : ∀ c ∈ name, FieldByte c) (hvalue : CR ∉ value)
    (hblank : value.head? ≠ some ' ') {named valued : Data}
    (hon : on data (.headerField name) = (named, 0))
    (hon' : on named (.headerValue value) = (valued, 0)) :
    Reads on ⟨⟨b, index, .sHeaderFieldStart, lookbehind⟩, data, marked⟩
      (name ++ [':', ' '] ++ (value ++ [CR, LF]))
      ⟨⟨b, index, .sHeaderFieldStart, lookbehind⟩, valued, value⟩ :=
  (reads_name hname hon).trans (reads_value hvalue hblank hon')

theorem reads_blank :
    Reads on ⟨⟨b, index, .sHeaderFieldStart, lookbehind⟩, data, marked⟩ [CR, LF]
      ⟨⟨b, index, .sPartDataStart, lookbehind⟩, data, []⟩ := by
  refine .cons (b := ⟨⟨b, index, .sHeadersAlmostDone, lookbehind⟩, data, []⟩) ?_ (.cons ?_ (.refl _))
  · simp [step, headerField, goto]
  · simp [step, goto]

end Headers

section Data

-- The data of a part, as the user's data after each of its beginnings.
variable {b : Str} {d : Str → Data} {final : Data}

-- What a part's data must not contain.
def delimiter (b : Str) : Str := CR :: LF :: b

theorem readsBack {cur : Cursor Data} {c : Char} {text s : Str} {next : Cursor Data}
    (hdata : cur.data = d s) (hon : ∀ s t, on (d s) (.partData t) = (d (s ++ t), 0))
    (hstate : step on cur c false = backToData on cur c false)
    (h : Reads on { goto cur .sPartData with
      data := d (s ++ cur.parser.lookbehind), marked := [] } (c :: text) next) :
    Reads on cur (c :: text) next := by
  refine h.of_step ?_
  rw [hstate, backToData, notify, hdata, hon]
  rfl

-- The delimiter itself, from a place inside it.
theorem reads_delimiter {data : Data} (hend : on data .partDataEnd = (final, 0)) {before after : Str}
    (hb : b = before ++ after) (hafter : after ≠ []) :
    Reads on ⟨⟨b, before.length, .sPartDataBoundary, CR :: LF :: before⟩, data, []⟩ after
      ⟨⟨b, b.length, .sPartDataAlmostEnd, delimiter b⟩, final, []⟩ := by
  induction after generalizing before with
  | nil => exact absurd rfl hafter
  | cons c rest ih =>
      have hc : b[before.length]? = some c := by
        rw [hb]
        simp
      have hnext : b = (before ++ [c]) ++ rest := by
        rw [hb]
        simp
      have hlength : b.length = before.length + (rest.length + 1) := by
        rw [hb, List.length_append, List.length_cons]
      by_cases hrest : rest = []
      · subst hrest
        have hwhole : before.length + 1 = b.length := by simp at hlength; omega
        refine .cons ?_ (.refl _)
        rw [List.append_nil] at hnext
        simp only [step, hc, if_true, notify, hend, goto, Except.map, hwhole, delimiter,
          List.cons_append, ← hnext]
      · have hpos := List.length_pos_of_ne_nil hrest
        have hmore : before.length + 1 ≠ b.length := by omega
        have hreads := ih hnext hrest
        rw [List.length_append, List.length_singleton] at hreads
        refine .cons ?_ hreads
        simp only [step, hc, if_true, if_neg hmore, List.cons_append]

variable {e : Str → Data}

-- Reading a part's data on, from whatever was read of it before.
def ReadsData (on : Data → Notice → Data × Int) (b : Str) (d e : Str → Data) (part : Str) : Prop :=
  ∀ (s marked lookbehind : Str) (index : Nat),
    Reads on ⟨⟨b, index, .sPartData, lookbehind⟩, d s, marked⟩ (part ++ delimiter b)
      ⟨⟨b, b.length, .sPartDataAlmostEnd, delimiter b⟩, e (s ++ (marked ++ part)), []⟩

theorem readsBack_data {cur : Cursor Data} {part s : Str} (hboundary : cur.parser.multipartBoundary = b)
    (hon : ∀ s t, on (d s) (.partData t) = (d (s ++ t), 0)) (hdata : cur.data = d s)
    (hstate : ∀ c, (part ++ delimiter b).head? = some c → step on cur c false = backToData on cur c false)
    (h : ReadsData on b d e part) :
    Reads on cur (part ++ delimiter b) ⟨⟨b, b.length, .sPartDataAlmostEnd, delimiter b⟩,
      e (s ++ (cur.parser.lookbehind ++ part)), []⟩ := by
  obtain ⟨⟨b', index, state, lookbehind⟩, data, marked⟩ := cur
  obtain rfl : b' = b := hboundary
  have hnext := h (s ++ lookbehind) [] lookbehind index
  rw [List.nil_append, List.append_assoc] at hnext
  have hne : part ++ delimiter b' ≠ [] := by simp [delimiter]
  obtain ⟨c, text, htext⟩ := List.exists_cons_of_ne_nil hne
  rw [htext] at hnext hstate ⊢
  exact readsBack hdata hon (hstate c rfl) hnext

-- What was read since a `CR` is not the delimiter.
theorem reads_inBoundary (hon : ∀ s t, on (d s) (.partData t) = (d (s ++ t), 0)) (hcr : CR ∉ b)
    {n : Nat} (ih : ∀ part : Str, part.length < n → ¬ delimiter b <:+: part → ReadsData on b d e part)
    {part : Str} (hlength : part.length < n) {before after : Str} (hb : b = before ++ after)
    (hafter : after ≠ []) (hpart : ¬ delimiter b <:+: CR :: LF :: before ++ part) (s : Str) :
    Reads on ⟨⟨b, before.length, .sPartDataBoundary, CR :: LF :: before⟩, d s, []⟩
      (part ++ delimiter b)
      ⟨⟨b, b.length, .sPartDataAlmostEnd, delimiter b⟩, e (s ++ (CR :: LF :: before ++ part)), []⟩ := by
  induction part generalizing before after with
  | nil =>
      refine readsBack_data rfl hon rfl ?_ (ih [] hlength ?_)
      · intro c hc
        obtain rfl : CR = c := Option.some.inj hc
        have hne : b[before.length]? ≠ some CR := fun h => hcr (List.mem_of_getElem? h)
        simp only [step, if_neg hne]
      · simp [delimiter]
  | cons c rest ihPart =>
      by_cases hc : b[before.length]? = some c
      · have hlt := (List.getElem?_eq_some_iff.mp hc).1
        obtain ⟨first, others, rfl⟩ := List.exists_cons_of_ne_nil hafter
        obtain rfl : first = c := by
          rw [hb, List.getElem?_append_right (Nat.le_refl _), Nat.sub_self] at hc
          exact Option.some.inj hc
        have hnext : b = (before ++ [first]) ++ others := by
          rw [hb]
          simp
        have hwords : CR :: LF :: before ++ first :: rest =
            CR :: LF :: (before ++ [first]) ++ rest := by simp
        rw [hwords] at hpart ⊢
        have hmore : others ≠ [] := by
          rintro rfl
          -- the whole delimiter was read
          rw [List.append_nil] at hnext
          rw [← hnext] at hpart
          exact hpart (List.prefix_append _ _).isInfix
        have hlength' : before.length + 1 ≠ b.length := by
          have hpos := List.length_pos_of_ne_nil hmore
          rw [hnext, List.length_append, List.length_append, List.length_singleton]
          omega
        have hreads := ihPart (Nat.lt_of_succ_lt hlength) hnext hmore hpart
        rw [List.length_append, List.length_singleton] at hreads
        refine .cons ?_ hreads
        simp only [step, hc, if_true, if_neg hlength', List.cons_append]
      · refine readsBack_data rfl hon rfl ?_ (ih _ hlength ?_)
        · intro c' hc'
          obtain rfl : c = c' := Option.some.inj hc'
          simp only [step, if_neg hc]
        · exact fun h => hpart (h.trans (List.suffix_append _ _).isInfix)

theorem reads_afterCr (hon : ∀ s t, on (d s) (.partData t) = (d (s ++ t), 0)) (hcr : CR ∉ b)
    (hb : b ≠ []) {n : Nat}
    (ih : ∀ part : Str, part.length < n → ¬ delimiter b <:+: part → ReadsData on b d e part)
    {part : Str} (hlength : part.length < n) (hpart : ¬ delimiter b <:+: CR :: part) (s : Str)
    (index : Nat) :
    Reads on ⟨⟨b, index, .sPartDataAlmostBoundary, [CR]⟩, d s, []⟩ (part ++ delimiter b)
      ⟨⟨b, b.length, .sPartDataAlmostEnd, delimiter b⟩, e (s ++ (CR :: part)), []⟩ := by
  by_cases hlf : part.head? = some LF
  · obtain ⟨c, rest, rfl⟩ : ∃ c rest, part = c :: rest := by
      cases part with
      | nil => cases hlf
      | cons c rest => exact ⟨c, rest, rfl⟩
    obtain rfl : c = LF := Option.some.inj hlf
    have hreads := reads_inBoundary hon hcr ih (Nat.lt_of_succ_lt hlength) (List.nil_append b).symm hb
      hpart s
    refine .cons ?_ hreads
    simp [step]
  · refine readsBack_data rfl hon rfl ?_ (ih _ hlength ?_)
    · intro c hc
      have hne : c ≠ LF := by
        rintro rfl
        cases part with
        | nil =>
            have hcrlf : CR = LF := Option.some.inj hc
            exact absurd hcrlf (by decide)
        | cons first rest => exact hlf hc
      simp only [step, if_neg hne]
    · exact fun h => hpart (h.trans (List.suffix_cons _ _).isInfix)

-- The data of a part, up to the first delimiter.
theorem readsData_of_not_infix (hon : ∀ s t, on (d s) (.partData t) = (d (s ++ t), 0))
    (hend : ∀ s, on (d s) .partDataEnd = (e s, 0)) (hcr : CR ∉ b) (hb : b ≠ []) {n : Nat} :
    ∀ part : Str, part.length < n → ¬ delimiter b <:+: part → ReadsData on b d e part := by
  induction n with
  | zero => exact fun part hlength => absurd hlength (Nat.not_lt_zero _)
  | succ n ih =>
      intro part hlength hpart s marked lookbehind index
      -- the data up to the next `CR` is handed over when that is read
      have hcarriage : step on ⟨⟨b, index, .sPartData, lookbehind⟩, d s, marked⟩ CR false =
          .ok ⟨⟨b, index, .sPartDataAlmostBoundary, [CR]⟩, d (s ++ marked), []⟩ := by
        simp [step, partData, notify, hon, Except.map]
      cases part with
      | nil =>
          have hdelimiter := reads_delimiter (hend (s ++ marked)) (List.nil_append b).symm hb
          rw [List.append_nil]
          refine .cons hcarriage (.cons ?_ hdelimiter)
          simp [step]
      | cons c rest =>
          have hshort : rest.length < n := Nat.lt_of_succ_lt_succ hlength
          by_cases hc : c = CR
          · subst hc
            have hreads := reads_afterCr hon hcr hb ih hshort hpart (s ++ marked) index
            rw [List.append_assoc] at hreads
            exact .cons hcarriage hreads
          · have hrest := ih rest hshort (fun h => hpart (h.trans (List.suffix_cons _ _).isInfix)) s
              (marked ++ [c]) lookbehind index
            rw [List.append_assoc, List.singleton_append] at hrest
            refine .cons ?_ hrest
            simp only [step, partData, if_neg hc]
            rfl

theorem reads_data (hon : ∀ s t, on (d s) (.partData t) = (d (s ++ t), 0))
    (hstart : on (d []) .headersComplete = (d [], 0)) (hend : ∀ s, on (d s) .partDataEnd = (e s, 0))
    (hcr : CR ∉ b) (hb : b ≠ []) {part : Str} (hpart : ¬ delimiter b <:+: part)
    (marked lookbehind : Str) (index : Nat) :
    Reads on ⟨⟨b, index, .sPartDataStart, lookbehind⟩, d [], marked⟩ (part ++ delimiter b)
      ⟨⟨b, b.length, .sPartDataAlmostEnd, delimiter b⟩, e part, []⟩ := by
  have hreads := readsData_of_not_infix hon hend hcr hb part (Nat.lt_succ_self _) hpart [] [] lookbehind
    index
  have hne : part ++ delimiter b ≠ [] := by simp [delimiter]
  obtain ⟨c, text, htext⟩ := List.exists_cons_of_ne_nil hne
  rw [htext] at hreads ⊢
  refine hreads.of_step ?_
  simp only [step, notify, hstart, if_true, goto]

end Data

end MultipartParser

end VideoAdapter.Http

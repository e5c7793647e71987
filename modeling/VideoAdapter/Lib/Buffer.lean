import Mathlib.Data.List.TakeWhile

namespace VideoAdapter.Lib

-- Byte arrays of a fixed size as C programs fill them. A copy that leaves the array has no
-- result.
def copyAt (buf : List UInt8) (offset : Nat) (data : List UInt8) : Option (List UInt8) :=
  if offset + data.length ≤ buf.length then
    some (buf.take offset ++ data ++ buf.drop (offset + data.length))
  else none

-- The bytes before the first NUL.
def cstring (s : List UInt8) : List UInt8 := s.takeWhile (· ≠ 0)

def strcpyAt (buf : List UInt8) (offset : Nat) (s : List UInt8) : Option (List UInt8) :=
  copyAt buf offset (cstring s ++ [0])

def zeros (n : Nat) : List UInt8 := List.replicate n 0

def padded (size : Nat) (s : List UInt8) : List UInt8 := s ++ zeros (size - s.length)

-- One copy after the other, each a slot further.
def copySlots (width : Nat) (buf : List UInt8) (offset : Nat) : List (List UInt8) → Option (List UInt8)
  | [] => some buf
  | s :: rest => (copyAt buf offset s).bind fun buf => copySlots width buf (offset + width) rest

-- A character field: what stands in it before the first NUL, at most the whole field.
def fieldAt (bytes : List UInt8) (offset size : Nat) : List UInt8 :=
  cstring ((bytes.drop offset).take size)

def slotsAt (width : Nat) (bytes : List UInt8) (offset count : Nat) : List (List UInt8) :=
  (List.range count).map fun i => fieldAt bytes (offset + width * i) width

-- A text that a field of this size can give back.
def FitsField (size : Nat) (s : List UInt8) : Prop := s.length ≤ size ∧ (0 : UInt8) ∉ s

instance (size : Nat) (s : List UInt8) : Decidable (FitsField size s) :=
  inferInstanceAs (Decidable (_ ∧ _))

theorem length_zeros (n : Nat) : (zeros n).length = n := List.length_replicate

theorem zeros_add (m n : Nat) : zeros (m + n) = zeros m ++ zeros n :=
  List.replicate_append_replicate.symm

theorem length_padded {size : Nat} {s : List UInt8} (h : s.length ≤ size) :
    (padded size s).length = size := by
  rw [padded, List.length_append, length_zeros]
  omega

theorem length_flatMap_padded {width : Nat} {ss : List (List UInt8)} (h : ∀ s ∈ ss, s.length ≤ width) :
    (ss.flatMap (padded width)).length = width * ss.length := by
  induction ss with
  | nil => rfl
  | cons s rest ih =>
      rw [List.flatMap_cons, List.length_append, length_padded (h s List.mem_cons_self),
        ih fun t ht => h t (List.mem_cons_of_mem _ ht), List.length_cons, Nat.mul_succ, Nat.add_comm]

theorem cstring_eq_self {s : List UInt8} (h : (0 : UInt8) ∉ s) : cstring s = s := by
  rw [cstring, List.takeWhile_eq_self_iff]
  intro b hb
  refine decide_eq_true ?_
  rintro rfl
  exact h hb

theorem length_cstring_le (s : List UInt8) : (cstring s).length ≤ s.length :=
  (List.takeWhile_sublist _).length_le

theorem zero_notMem_cstring (s : List UInt8) : (0 : UInt8) ∉ cstring s := by
  intro hmem
  have hne := List.mem_takeWhile_imp hmem
  simp at hne

-- What a field gives back is a text that fits it.
theorem fitsField_fieldAt (bytes : List UInt8) (offset size : Nat) :
    FitsField size (fieldAt bytes offset size) := by
  constructor
  · refine (length_cstring_le _).trans ?_
    rw [List.length_take]
    omega
  · exact zero_notMem_cstring _

-- Writing over a part of the same length.
theorem copyAt_middle (before old after data : List UInt8) (h : data.length = old.length) :
    copyAt (before ++ old ++ after) before.length data = some (before ++ data ++ after) := by
  have hfits : before.length + data.length ≤ (before ++ old ++ after).length := by
    simp only [List.length_append]
    omega
  have hrest : (before ++ old ++ after).drop (before.length + data.length) = after := by
    rw [h, ← List.length_append, List.drop_left]
  have hstart : (before ++ old ++ after).take before.length = before := by
    rw [List.append_assoc, List.take_left]
  rw [copyAt, if_pos hfits, hstart, hrest]

-- Writing at the end of what is filled.
theorem copyAt_zeros (filled data : List UInt8) {n : Nat} (h : data.length ≤ n) :
    copyAt (filled ++ zeros n) filled.length data = some (filled ++ data ++ zeros (n - data.length)) := by
  have hsplit : filled ++ zeros n = filled ++ zeros data.length ++ zeros (n - data.length) := by
    rw [List.append_assoc, ← zeros_add, Nat.add_sub_cancel' h]
  rw [hsplit]
  exact copyAt_middle filled _ _ data (length_zeros _).symm

theorem strcpyAt_zeros (filled : List UInt8) {s : List UInt8} (hs : (0 : UInt8) ∉ s) {n : Nat}
    (h : s.length < n) :
    strcpyAt (filled ++ zeros n) filled.length s = some (filled ++ (s ++ zeros (n - s.length))) := by
  have hlength : (s ++ [0]).length ≤ n := by rw [List.length_append, List.length_singleton]; exact h
  have hend : [0] ++ zeros (n - (s ++ [0]).length) = zeros (n - s.length) := by
    rw [List.length_append, List.length_singleton]
    refine (zeros_add 1 _).symm.trans ?_
    congr 1
    omega
  rw [strcpyAt, cstring_eq_self hs, copyAt_zeros filled _ hlength, ← hend]
  simp only [List.append_assoc]

theorem append_zeros_eq_padded {size n : Nat} {s : List UInt8} (hs : s.length ≤ size) (hn : size ≤ n) :
    s ++ zeros (n - s.length) = padded size s ++ zeros (n - size) := by
  rw [padded, List.append_assoc, ← zeros_add]
  congr 2
  omega

theorem le_of_copyAt {buf data filled : List UInt8} {offset : Nat}
    (h : copyAt buf offset data = some filled) : offset + data.length ≤ buf.length := by
  unfold copyAt at h
  split at h
  · assumption
  · cases h

theorem exists_copyAt_iff {buf data : List UInt8} {offset : Nat} :
    (∃ filled, copyAt buf offset data = some filled) ↔ offset + data.length ≤ buf.length :=
  ⟨fun ⟨_, h⟩ => le_of_copyAt h, fun h => ⟨_, if_pos h⟩⟩

theorem length_copyAt {buf data filled : List UInt8} {offset : Nat}
    (h : copyAt buf offset data = some filled) : filled.length = buf.length := by
  have hle := le_of_copyAt h
  rw [copyAt, if_pos hle] at h
  obtain rfl := Option.some.inj h
  simp only [List.length_append, List.length_take, List.length_drop]
  omega

-- Zeros behind a text do not make it longer.
theorem cstring_append_zeros (s : List UInt8) (n : Nat) : cstring (s ++ zeros n) = cstring s := by
  have hzeros : cstring (zeros n) = [] := by
    cases n with
    | zero => rfl
    | succ n => simp [zeros, cstring, List.replicate_succ]
  unfold cstring at hzeros ⊢
  rw [List.takeWhile_append]
  split
  · rw [hzeros, List.append_nil]
    rename_i hall
    exact (List.IsPrefix.eq_of_length (List.takeWhile_prefix _) hall).symm
  · rfl

-- A field whose NUL is at most right behind it gives the same text to a reader that goes further.
theorem cstring_take {s : List UInt8} {n m : Nat} (h : (0 : UInt8) ∈ s.take (n + 1)) (hm : n ≤ m) :
    cstring (s.take m) = cstring (s.take n) := by
  induction s generalizing n m with
  | nil => cases h
  | cons b rest ih =>
      by_cases hb : b = 0
      · subst hb
        cases m <;> cases n <;> simp [cstring]
      · cases n with
        | zero =>
            rw [List.take_succ_cons, List.mem_cons] at h
            exact absurd (h.resolve_right (by simp)).symm hb
        | succ n =>
            obtain ⟨m, rfl⟩ := Nat.exists_eq_add_of_lt hm
            rw [List.take_succ_cons, List.mem_cons] at h
            have hrest := ih (m := n + m) (h.resolve_left (Ne.symm hb)) (Nat.le_add_right n m)
            unfold cstring at hrest ⊢
            rw [List.take_succ_cons, List.take_succ_cons,
              List.takeWhile_cons_of_pos (by simpa using hb),
              List.takeWhile_cons_of_pos (by simpa using hb), hrest]

-- The text is as long as the bytes that precede the first NUL.
theorem le_length_cstring_iff {s : List UInt8} {n : Nat} :
    n ≤ (cstring s).length ↔ n ≤ s.length ∧ (0 : UInt8) ∉ s.take n := by
  induction s generalizing n with
  | nil => simp [cstring]
  | cons b rest ih =>
      cases n with
      | zero => simp
      | succ n =>
          unfold cstring at ih ⊢
          by_cases hb : b = 0
          · simp [hb]
          · rw [List.takeWhile_cons_of_pos (by simpa using hb), List.length_cons, List.length_cons,
              Nat.add_le_add_iff_right, Nat.add_le_add_iff_right, ih, List.take_succ_cons,
              List.mem_cons, not_or]
            simp [Ne.symm hb]

-- The first bytes hold a text as long as the whole exactly when its NUL is at most right behind them.
theorem length_cstring_take_eq_iff {s : List UInt8} {n : Nat} (hn : n < s.length) :
    (cstring (s.take n)).length = (cstring s).length ↔ (0 : UInt8) ∈ s.take (n + 1) := by
  constructor
  · intro heq
    by_contra hnul
    have hlong : n + 1 ≤ (cstring s).length := le_length_cstring_iff.mpr ⟨hn, hnul⟩
    have hshort := length_cstring_le (s.take n)
    rw [heq, List.length_take] at hshort
    omega
  · intro hnul
    have hall := cstring_take hnul hn.le
    rw [List.take_length] at hall
    rw [hall]

-- A text that was copied to a place is read there, when the reader goes far enough to find its NUL.
theorem fieldAt_strcpyAt {buf s filled : List UInt8} {offset size : Nat}
    (h : strcpyAt buf offset s = some filled) (hsize : (cstring s).length < size) :
    fieldAt filled offset size = cstring s := by
  have hle := le_of_copyAt h
  rw [strcpyAt, copyAt, if_pos hle] at h
  obtain rfl := Option.some.inj h
  have hoffset : (buf.take offset).length = offset := by
    rw [List.length_take]
    omega
  rw [fieldAt, List.append_assoc, List.drop_left' hoffset, List.append_assoc, List.take_append,
    List.take_of_length_le hsize.le, cstring]
  rw [List.takeWhile_append_of_pos]
  · obtain ⟨k, hk⟩ := Nat.exists_eq_add_of_lt hsize
    rw [hk, show (cstring s).length + k + 1 - (cstring s).length = k + 1 by omega]
    simp
  · intro b hb
    refine decide_eq_true ?_
    rintro rfl
    exact zero_notMem_cstring s hb

theorem getD_append_zeros (s : List UInt8) (n i : Nat) : (s ++ zeros n).getD i 0 = s.getD i 0 := by
  rw [List.getD_eq_getElem?_getD, List.getD_eq_getElem?_getD]
  by_cases hi : i < s.length
  · rw [List.getElem?_append_left hi]
  · rw [List.getElem?_append_right (by omega), List.getElem?_eq_none (l := s) (by omega), zeros,
      List.getElem?_replicate]
    split
    · rfl
    · rfl

-- The copies go through when each of them stays in the array.
theorem exists_copySlots {width : Nat} {ss : List (List UInt8)} {buf : List UInt8} {offset : Nat}
    (h : ∀ i s, ss[i]? = some s → offset + width * i + s.length ≤ buf.length) :
    ∃ filled, copySlots width buf offset ss = some filled ∧ filled.length = buf.length := by
  induction ss generalizing buf offset with
  | nil => exact ⟨buf, rfl, rfl⟩
  | cons s rest ih =>
      have hfirst := h 0 s rfl
      cases hcopy : copyAt buf offset s with
      | none =>
          rw [copyAt, if_pos (by omega)] at hcopy
          cases hcopy
      | some next =>
          have hlen := length_copyAt hcopy
          obtain ⟨filled, hfilled, hlen'⟩ := @ih next (offset + width) fun i s' hi => by
            have hnext := h (i + 1) s' hi
            rw [Nat.mul_succ] at hnext
            omega
          exact ⟨filled, by rw [copySlots, hcopy, Option.bind_some, hfilled], hlen'.trans hlen⟩

-- Slots that fit lie next to each other, padded.
theorem copySlots_zeros {width : Nat} {ss : List (List UInt8)} (hss : ∀ s ∈ ss, s.length ≤ width)
    (filled : List UInt8) {n : Nat} (h : width * ss.length ≤ n) :
    copySlots width (filled ++ zeros n) filled.length ss =
      some (filled ++ ss.flatMap (padded width) ++ zeros (n - width * ss.length)) := by
  induction ss generalizing filled n with
  | nil => simp [copySlots]
  | cons s rest ih =>
      have hs : s.length ≤ width := hss s List.mem_cons_self
      rw [List.length_cons, Nat.mul_succ] at h
      have hn : s.length ≤ n := by omega
      have hpad : filled ++ s ++ zeros (n - s.length) = (filled ++ padded width s) ++ zeros (n - width) := by
        rw [List.append_assoc, append_zeros_eq_padded hs (by omega), List.append_assoc]
      have hlength : filled.length + width = (filled ++ padded width s).length := by
        rw [List.length_append, length_padded hs]
      have hleft : n - width - width * rest.length = n - (width * rest.length + width) := by omega
      rw [copySlots, copyAt_zeros filled s hn, Option.bind_some, hpad, hlength,
        ih (fun t ht => hss t (List.mem_cons_of_mem _ ht)) _ (by omega), List.flatMap_cons,
        List.length_cons, Nat.mul_succ, hleft]
      simp only [List.append_assoc]

theorem fieldAt_padded {size : Nat} {s : List UInt8} (h : FitsField size s) (before after : List UInt8) :
    fieldAt (before ++ (padded size s ++ after)) before.length size = s := by
  have htake : (padded size s ++ after).take size = padded size s :=
    List.take_left' (length_padded h.1)
  rw [fieldAt, List.drop_left, htake, padded, cstring]
  rw [List.takeWhile_append_of_pos]
  · have hend : (zeros (size - s.length)).takeWhile (fun b => decide (b ≠ 0)) = [] := by
      cases hz : size - s.length with
      | zero => rfl
      | succ k => simp [zeros, List.replicate_succ]
    rw [hend, List.append_nil]
  · intro b hb
    refine decide_eq_true ?_
    rintro rfl
    exact h.2 hb

theorem fitsField_of_mem_slotsAt {width offset count : Nat} {bytes s : List UInt8}
    (h : s ∈ slotsAt width bytes offset count) : FitsField width s := by
  obtain ⟨i, -, rfl⟩ := List.mem_map.mp h
  exact fitsField_fieldAt bytes (offset + width * i) width

theorem slotsAt_flatMap {width : Nat} {ss : List (List UInt8)} (hss : ∀ s ∈ ss, FitsField width s)
    (before after : List UInt8) :
    slotsAt width (before ++ (ss.flatMap (padded width) ++ after)) before.length ss.length = ss := by
  induction ss generalizing before with
  | nil => rfl
  | cons s rest ih =>
      have hs := hss s List.mem_cons_self
      have hrest := ih (fun t ht => hss t (List.mem_cons_of_mem _ ht)) (before ++ padded width s)
      have hlength : (before ++ padded width s).length = before.length + width := by
        rw [List.length_append, length_padded hs.1]
      rw [slotsAt, List.length_cons, List.range_succ_eq_map, List.map_cons, List.map_map,
        List.flatMap_cons]
      refine congrArg₂ List.cons ?_ ?_
      · rw [Nat.mul_zero, Nat.add_zero, List.append_assoc]
        exact fieldAt_padded hs before _
      · rw [slotsAt, hlength] at hrest
        refine Eq.trans ?_ hrest
        refine List.map_congr_left fun i _ => ?_
        simp only [Function.comp_apply, List.append_assoc, Nat.mul_succ]
        congr 1
        omega

end VideoAdapter.Lib

import VideoAdapter.Adapter.DBHelper

namespace VideoAdapter.Adapter

-- `TBDeviceEx()`
def blankDevice : TBDeviceEx := { pid := "", name := "", allday := 0 }

-- The array and the local variables of `get_group_info_ex`. The array is the caller's memory from
-- its first entry on; `written` and `fetched` only record what the loop has done.
structure CameraFetch where
  list : Nat → TBDeviceEx := fun _ => blankDevice
  iNum : Nat := 0
  ret : Int := 0
  written : List Nat := []
  fetched : Nat := 0

namespace CameraFetch

-- An assignment to members of `list[iNum]`
def write (f : CameraFetch) (g : TBDeviceEx → TBDeviceEx) : CameraFetch :=
  { f with list := fun i => if i = f.iNum then g (f.list i) else f.list i,
           written := f.written ++ [f.iNum] }

-- The end of the loop body, and whether the loop goes on.
def next (f : CameraFetch) : CameraFetch × Bool :=
  let f := { f with iNum := f.iNum + 1 }
  (f, !(f.iNum > MAX_DEVICE_NUM_PER_ADAPTER))

def invalid (f : CameraFetch) : CameraFetch × Bool := ({ f with ret := -1 }, false)

def fetchRow (f : CameraFetch) (sqlrow : Row) : CameraFetch × Bool :=
  let f := { f with fetched := f.fetched + 1 }
  match sqlrow 1, sqlrow 3, sqlrow 4 with
  | some pid, some name, some text =>
      let f := f.write fun p => { p with pid, name, allday := atoi text }
      if atoi text = 1 then f.next
      else
        match sqlrow 5, sqlrow 6 with
        | some s0, some e0 =>
            let f := f.write fun p => { p with s0, e0 }
            match sqlrow 7 with
            | none => f.next
            | some s1 =>
                match sqlrow 8 with
                | none => f.invalid
                | some e1 => (f.write fun p => { p with s1, e1 }).next
        | _, _ => f.invalid
  | _, _, _ => f.invalid

def fetchRows : List Row → CameraFetch → CameraFetch
  | [], f => f
  | sqlrow :: rest, f =>
      let out := f.fetchRow sqlrow
      if out.2 then fetchRows rest out.1 else out.1

end CameraFetch

-- The result and what was done on the way to it. Behind the loop `ret = iNum` takes the place of
-- the code that was set in it.
def DBHelper.loadGroupInfoEx (query : QueryResult) : Int × CameraFetch :=
  match query with
  | .noConnection => (-1, {})
  | .failed => let f : CameraFetch := { ret := -1 }; (f.iNum, f)
  | .noResult => let f : CameraFetch := { ret := -1 }; (f.iNum, f)
  | .rows rows => let f := CameraFetch.fetchRows rows {}; (f.iNum, f)

-- The columns that the code asks of every row.
def Headed (sqlrow : Row) : Prop := sqlrow 1 ≠ none ∧ sqlrow 3 ≠ none ∧ sqlrow 4 ≠ none

-- And those of the windows, unless the camera runs all day.
def Complete (sqlrow : Row) : Prop :=
  Headed sqlrow ∧ ((sqlrow 4).map atoi ≠ some 1 →
    sqlrow 5 ≠ none ∧ sqlrow 6 ≠ none ∧ (sqlrow 7 ≠ none → sqlrow 8 ≠ none))

theorem readCamera_isSome_iff {sqlrow : Row} :
    (DBHelper.readCamera sqlrow).isSome = true ↔ Complete sqlrow := by
  unfold DBHelper.readCamera Complete Headed
  cases sqlrow 1 <;> cases sqlrow 3 <;> cases h4 : sqlrow 4 <;> simp
  rename_i pid name text
  by_cases hall : atoi text = 1
  · simp [hall]
  · cases sqlrow 5 <;> cases sqlrow 6 <;> cases sqlrow 7 <;> cases sqlrow 8 <;> simp [hall]

theorem readCamera_eq_none_iff {sqlrow : Row} : DBHelper.readCamera sqlrow = none ↔ ¬ Complete sqlrow := by
  rw [← readCamera_isSome_iff, Option.not_isSome_iff_eq_none]

namespace CameraFetch

-- Inside the loop body: the entry holds `p` so far and everything else is as before it.
structure Writing (f : CameraFetch) (p : TBDeviceEx) (f' : CameraFetch) : Prop where
  iNum : f'.iNum = f.iNum
  ret : f'.ret = f.ret
  fetched : f'.fetched = f.fetched + 1
  list : ∀ i, f'.list i = if i = f.iNum then p else f.list i
  written : ∀ i, i ∈ f'.written ↔ i ∈ f.written ∨ i = f.iNum

-- A complete row is stored in the next entry and counted.
structure Stored (f : CameraFetch) (camera : TBDeviceEx) (out : CameraFetch × Bool) : Prop where
  iNum : out.1.iNum = f.iNum + 1
  more : out.2 = true ↔ f.iNum + 1 ≤ MAX_DEVICE_NUM_PER_ADAPTER
  ret : out.1.ret = f.ret
  fetched : out.1.fetched = f.fetched + 1
  list : ∀ i, out.1.list i = if i = f.iNum then camera else f.list i
  written : ∀ i, i ∈ out.1.written ↔ i ∈ f.written ∨ i = f.iNum

-- Another row ends the loop, and what it has in its first columns is already in the entry.
structure Refused (f : CameraFetch) (sqlrow : Row) (out : CameraFetch × Bool) : Prop where
  iNum : out.1.iNum = f.iNum
  more : out.2 = false
  ret : out.1.ret = -1
  fetched : out.1.fetched = f.fetched + 1
  list : ∀ i, i ≠ f.iNum → out.1.list i = f.list i
  written : ∀ i, i ∈ out.1.written ↔ i ∈ f.written ∨ (i = f.iNum ∧ Headed sqlrow)

theorem writing_first (f : CameraFetch) (g : TBDeviceEx → TBDeviceEx) :
    Writing f (g (f.list f.iNum)) ({ f with fetched := f.fetched + 1 }.write g) where
  iNum := rfl
  ret := rfl
  fetched := rfl
  list i := by
    by_cases hi : i = f.iNum
    · simp [write, hi]
    · simp [write, hi]
  written i := by simp [write]

theorem Writing.write {f f' : CameraFetch} {p : TBDeviceEx} (h : Writing f p f')
    (g : TBDeviceEx → TBDeviceEx) : Writing f (g p) (f'.write g) where
  iNum := h.iNum
  ret := h.ret
  fetched := h.fetched
  list i := by
    by_cases hi : i = f.iNum
    · simp [CameraFetch.write, h.iNum, h.list, hi]
    · simp [CameraFetch.write, h.iNum, h.list, hi]
  written i := by simp [CameraFetch.write, h.written, h.iNum]

theorem Writing.next {f f' : CameraFetch} {p : TBDeviceEx} (h : Writing f p f') : Stored f p f'.next where
  iNum := congrArg (· + 1) h.iNum
  more := by simp [CameraFetch.next, h.iNum]
  ret := h.ret
  fetched := h.fetched
  list := h.list
  written := h.written

theorem Writing.invalid {f f' : CameraFetch} {p : TBDeviceEx} {sqlrow : Row} (h : Writing f p f')
    (hhead : Headed sqlrow) : Refused f sqlrow f'.invalid where
  iNum := h.iNum
  more := rfl
  ret := rfl
  fetched := h.fetched
  list i hi := (h.list i).trans (if_neg hi)
  written i := by simp [CameraFetch.invalid, h.written, hhead]

theorem fetchRow_cases {f : CameraFetch} (hblank : f.list f.iNum = blankDevice) (sqlrow : Row) :
    (∃ camera, DBHelper.readCamera sqlrow = some camera ∧ Stored f camera (f.fetchRow sqlrow)) ∨
      DBHelper.readCamera sqlrow = none ∧ Refused f sqlrow (f.fetchRow sqlrow) := by
  have hskip (hhead : ¬ Headed sqlrow) :
      Refused f sqlrow ({ f with fetched := f.fetched + 1 } : CameraFetch).invalid :=
    ⟨rfl, rfl, rfl, rfl, fun _ _ => rfl, fun i => by simp [invalid, hhead]⟩
  unfold fetchRow DBHelper.readCamera
  cases h1 : sqlrow 1 with
  | none => exact .inr ⟨rfl, hskip fun hhead => hhead.1 h1⟩
  | some pid =>
  cases h3 : sqlrow 3 with
  | none => exact .inr ⟨rfl, hskip fun hhead => hhead.2.1 h3⟩
  | some name =>
  cases h4 : sqlrow 4 with
  | none => exact .inr ⟨rfl, hskip fun hhead => hhead.2.2 h4⟩
  | some text =>
      have hhead : Headed sqlrow := by simp [Headed, h1, h3, h4]
      have hfirst := writing_first f fun p => { p with pid, name, allday := atoi text }
      rw [hblank] at hfirst
      by_cases hall : atoi text = 1
      · refine .inl ⟨{ pid, name, allday := atoi text }, if_pos hall, ?_⟩
        simp only [if_pos hall]
        exact hfirst.next
      · simp only [if_neg hall]
        cases h5 : sqlrow 5 with
        | none => exact .inr ⟨by simp [hall], hfirst.invalid hhead⟩
        | some s0 =>
        cases h6 : sqlrow 6 with
        | none => exact .inr ⟨by simp [hall], hfirst.invalid hhead⟩
        | some e0 =>
            have hsecond := hfirst.write fun p => { p with s0, e0 }
            cases h7 : sqlrow 7 with
            | none =>
                exact .inl ⟨{ pid, name, allday := atoi text, s0, e0 }, by simp [hall], hsecond.next⟩
            | some s1 =>
                cases h8 : sqlrow 8 with
                | none => exact .inr ⟨by simp [hall], hsecond.invalid hhead⟩
                | some e1 =>
                    have hthird := hsecond.write fun p => { p with s1, e1 }
                    exact .inl ⟨{ pid, name, allday := atoi text, s0, e0, s1, e1 }, by simp [hall],
                      hthird.next⟩

-- The rows read so far are all in the array.
structure Filled (rows : List Row) (f : CameraFetch) : Prop where
  iNum : f.iNum = rows.length
  ret : f.ret = 0
  fetched : f.fetched = rows.length
  entries : ∀ i sqlrow, rows[i]? = some sqlrow → DBHelper.readCamera sqlrow = some (f.list i)
  blank : ∀ i, rows.length ≤ i → f.list i = blankDevice
  written : ∀ i, i ∈ f.written ↔ i < rows.length

-- The row after them has ended the loop.
structure Halted (rows : List Row) (sqlrow : Row) (f : CameraFetch) : Prop where
  iNum : f.iNum = rows.length
  ret : f.ret = -1
  fetched : f.fetched = rows.length + 1
  entries : ∀ i sqlrow, rows[i]? = some sqlrow → DBHelper.readCamera sqlrow = some (f.list i)
  written : ∀ i, i ∈ f.written ↔ i < rows.length ∨ (i = rows.length ∧ Headed sqlrow)

theorem Filled.stored {rows : List Row} {f : CameraFetch} (h : Filled rows f) {sqlrow : Row}
    {camera : TBDeviceEx} (hrow : DBHelper.readCamera sqlrow = some camera)
    {out : CameraFetch × Bool} (hout : Stored f camera out) : Filled (rows ++ [sqlrow]) out.1 where
  iNum := by rw [hout.iNum, h.iNum, List.length_append, List.length_singleton]
  ret := hout.ret.trans h.ret
  fetched := by rw [hout.fetched, h.fetched, List.length_append, List.length_singleton]
  entries i row hi := by
    rw [hout.list, h.iNum]
    by_cases hlast : i = rows.length
    · subst hlast
      rw [List.getElem?_concat_length] at hi
      cases hi
      rw [if_pos rfl, hrow]
    · have hlt := (List.getElem?_eq_some_iff.mp hi).1
      rw [List.length_append, List.length_singleton] at hlt
      rw [List.getElem?_append_left (by omega)] at hi
      rw [if_neg hlast, h.entries i row hi]
  blank i hi := by
    rw [List.length_append, List.length_singleton] at hi
    rw [hout.list, h.iNum, if_neg (by omega), h.blank i (by omega)]
  written i := by
    rw [hout.written, h.written, h.iNum, List.length_append, List.length_singleton]
    omega

theorem Filled.refused {rows : List Row} {f : CameraFetch} (h : Filled rows f) {sqlrow : Row}
    {out : CameraFetch × Bool} (hout : Refused f sqlrow out) : Halted rows sqlrow out.1 where
  iNum := hout.iNum.trans h.iNum
  ret := hout.ret
  fetched := by rw [hout.fetched, h.fetched]
  entries i row hi := by
    have hlt := (List.getElem?_eq_some_iff.mp hi).1
    rw [hout.list i (by rw [h.iNum]; omega), h.entries i row hi]
  written i := by rw [hout.written, h.written, h.iNum]

-- How the loop ends: with the rows used up or one more than the array holds, or at a row that is
-- not complete.
inductive Ended (rows : List Row) (f : CameraFetch) : Prop where
  | filled (h : Filled (rows.take (MAX_DEVICE_NUM_PER_ADAPTER + 1)) f)
  | halted (m : Nat) (sqlrow : Row) (hm : m ≤ MAX_DEVICE_NUM_PER_ADAPTER)
      (hrow : rows[m]? = some sqlrow) (hnone : DBHelper.readCamera sqlrow = none)
      (h : Halted (rows.take m) sqlrow f)

theorem fetchRows_ended {rest : List Row} : ∀ {rows : List Row} {f : CameraFetch}, Filled rows f →
    rows.length ≤ MAX_DEVICE_NUM_PER_ADAPTER → Ended (rows ++ rest) (fetchRows rest f) := by
  induction rest with
  | nil =>
      intro rows f h hlen
      refine .filled ?_
      rw [List.append_nil, List.take_of_length_le (by omega)]
      exact h
  | cons sqlrow rest ih =>
      intro rows f h hlen
      have happend : rows ++ sqlrow :: rest = rows ++ [sqlrow] ++ rest := by simp
      unfold fetchRows
      rcases fetchRow_cases (h.blank f.iNum (Nat.le_of_eq h.iNum.symm)) sqlrow with
        ⟨camera, hrow, hout⟩ | ⟨hnone, hout⟩
      · have hfilled := h.stored hrow hout
        have hlen' : (rows ++ [sqlrow]).length = rows.length + 1 := by simp
        have hmore := hout.more
        rw [h.iNum] at hmore
        by_cases hlt : rows.length + 1 ≤ MAX_DEVICE_NUM_PER_ADAPTER
        · rw [happend]
          simp only [hmore.mpr hlt, if_true]
          exact ih hfilled (by omega)
        · have hstop : (f.fetchRow sqlrow).2 ≠ true := fun htrue => hlt (hmore.mp htrue)
          simp only [if_neg hstop]
          refine .filled ?_
          rw [happend, List.take_append_of_le_length (by omega), List.take_of_length_le (by omega)]
          exact hfilled
      · simp only [hout.more, Bool.false_eq_true, if_false]
        refine .halted rows.length sqlrow hlen (by simp) hnone ?_
        rw [List.take_left]
        exact h.refused hout

theorem fetchRows_all (rows : List Row) : Ended rows (fetchRows rows {}) :=
  @fetchRows_ended rows [] {} ⟨rfl, rfl, rfl, fun i row hi => by simp at hi, fun _ _ => rfl,
    fun i => by simp⟩ (Nat.zero_le _)

end CameraFetch

open CameraFetch

theorem complete_of_entries {rows : List Row} {list : Nat → TBDeviceEx}
    (h : ∀ i sqlrow, rows[i]? = some sqlrow → DBHelper.readCamera sqlrow = some (list i)) :
    ∀ sqlrow ∈ rows, Complete sqlrow := by
  intro sqlrow hmem
  obtain ⟨i, hi⟩ := List.mem_iff_getElem?.mp hmem
  rw [← readCamera_isSome_iff, h i sqlrow hi]
  rfl

-- No entry behind the array is written, no more are counted than it has, and what is counted are
-- the first rows.
structure WithinArray (rows : List Row) (out : Int × CameraFetch) : Prop where
  written : ∀ i ∈ out.2.written, i < MAX_DEVICE_NUM_PER_ADAPTER
  count : out.1 ≤ MAX_DEVICE_NUM_PER_ADAPTER
  entries : ∀ i : Nat, (i : Int) < out.1 →
    ∃ sqlrow, rows[i]? = some sqlrow ∧ DBHelper.readCamera sqlrow = some (out.2.list i)

-- The array is too small by the row that the loop takes when it is full.
theorem loadGroupInfoEx_within_iff (rows : List Row) :
    WithinArray rows (DBHelper.loadGroupInfoEx (.rows rows)) ↔
      rows.length ≤ MAX_DEVICE_NUM_PER_ADAPTER ∨
      (∃ sqlrow ∈ rows.take MAX_DEVICE_NUM_PER_ADAPTER, ¬ Complete sqlrow) ∨
      ∃ sqlrow, rows[MAX_DEVICE_NUM_PER_ADAPTER]? = some sqlrow ∧ ¬ Headed sqlrow := by
  have hret : DBHelper.loadGroupInfoEx (.rows rows) =
      (((fetchRows rows {}).iNum : Int), fetchRows rows {}) := rfl
  rw [hret]
  cases fetchRows_all rows with
  | filled h =>
      by_cases hfits : rows.length ≤ MAX_DEVICE_NUM_PER_ADAPTER
      · rw [List.take_of_length_le (by omega)] at h
        refine iff_of_true ⟨fun i hi => ?_, ?_, fun i hi => ?_⟩ (.inl hfits)
        · have hlt := (h.written i).mp hi
          omega
        · dsimp only
          rw [h.iNum]
          omega
        · dsimp only at hi
          rw [h.iNum] at hi
          have hrow := List.getElem?_eq_getElem (show i < rows.length by omega)
          exact ⟨_, hrow, h.entries i _ hrow⟩
      · have hcomplete := complete_of_entries h.entries
        refine iff_of_false (fun hwithin => ?_) ?_
        · have hcount := hwithin.count
          have hall := h.iNum
          rw [List.length_take] at hall
          dsimp only at hcount
          omega
        · rintro (hle | ⟨sqlrow, hmem, hnot⟩ | ⟨sqlrow, hrow, hnot⟩)
          · exact hfits hle
          · exact hnot (hcomplete sqlrow (List.take_subset_take_left _ (Nat.le_succ _) hmem))
          · refine hnot (hcomplete sqlrow (List.mem_iff_getElem?.mpr ⟨MAX_DEVICE_NUM_PER_ADAPTER, ?_⟩)).1
            rw [List.getElem?_take_of_lt (Nat.lt_succ_self _), hrow]
  | halted m sqlrow hm hrow hnone h =>
      have hlt := (List.getElem?_eq_some_iff.mp hrow).1
      have hlen : (rows.take m).length = m := by
        rw [List.length_take]
        omega
      have hnot : ¬ Complete sqlrow := readCamera_eq_none_iff.mp hnone
      have hiff : WithinArray rows (((fetchRows rows {}).iNum : Int), fetchRows rows {}) ↔
          (Headed sqlrow → m < MAX_DEVICE_NUM_PER_ADAPTER) := by
        constructor
        · intro hwithin hhead
          exact hwithin.written m ((h.written m).mpr (.inr ⟨hlen.symm, hhead⟩))
        · intro hhead
          refine ⟨fun i hi => ?_, ?_, fun i hi => ?_⟩
          · rcases (h.written i).mp hi with hbefore | ⟨hlast, hheaded⟩
            · omega
            · have hm' := hhead hheaded
              omega
          · dsimp only
            rw [h.iNum, hlen]
            omega
          · dsimp only at hi
            rw [h.iNum, hlen] at hi
            have hi' := List.getElem?_eq_getElem (show i < rows.length by omega)
            refine ⟨_, hi', h.entries i _ ?_⟩
            rw [List.getElem?_take_of_lt (by omega), hi']
      rw [hiff]
      by_cases hinside : m < MAX_DEVICE_NUM_PER_ADAPTER
      · refine iff_of_true (fun _ => hinside) (.inr (.inl ⟨sqlrow, ?_, hnot⟩))
        exact List.mem_iff_getElem?.mpr ⟨m, by rw [List.getElem?_take_of_lt hinside, hrow]⟩
      · obtain rfl : m = MAX_DEVICE_NUM_PER_ADAPTER := by omega
        constructor
        · intro hhead
          exact .inr (.inr ⟨sqlrow, hrow, fun hheaded => hinside (hhead hheaded)⟩)
        · rintro (hle | ⟨row, hmem, hrow'⟩ | ⟨row, hrow', hheadless⟩) hhead
          · omega
          · exact absurd (complete_of_entries h.entries row hmem) hrow'
          · obtain rfl : sqlrow = row := Option.some.inj (hrow.symm.trans hrow')
            exact absurd hhead hheadless

theorem readCameras_append {rows : List Row} {list : Nat → TBDeviceEx}
    (h : ∀ i sqlrow, rows[i]? = some sqlrow → DBHelper.readCamera sqlrow = some (list i))
    (rest : List Row) :
    DBHelper.readCameras (rows ++ rest) =
      (List.range rows.length).map list ++ DBHelper.readCameras rest := by
  induction rows generalizing list with
  | nil => rfl
  | cons sqlrow rows ih =>
      have hfirst := h 0 sqlrow rfl
      have hrest := @ih (fun i => list (i + 1)) fun i row hi => h (i + 1) row hi
      rw [List.cons_append, DBHelper.readCameras, hfirst, List.length_cons, List.range_succ_eq_map]
      simp only [hrest, List.map_cons, List.map_map, List.cons_append]
      rfl

theorem CameraFetch.Halted.loaded {rows : List Row} {f : CameraFetch} {m : Nat} {sqlrow : Row}
    (h : Halted (rows.take m) sqlrow f) (hrow : rows[m]? = some sqlrow)
    (hnone : DBHelper.readCamera sqlrow = none) :
    DBHelper.readCameras rows = (List.range f.iNum).map f.list := by
  obtain ⟨hlt, hget⟩ := List.getElem?_eq_some_iff.mp hrow
  have hsplit : rows = rows.take m ++ sqlrow :: rows.drop (m + 1) := by
    rw [← hget, ← List.drop_eq_getElem_cons hlt, List.take_append_drop]
  rw [hsplit, readCameras_append h.entries, ← h.iNum]
  simp only [DBHelper.readCameras, hnone, List.append_nil]

-- What the loop has loaded when it ends.
theorem CameraFetch.Ended.loaded {rows : List Row} {f : CameraFetch} (h : Ended rows f) :
    (DBHelper.readCameras rows).take (MAX_DEVICE_NUM_PER_ADAPTER + 1) = (List.range f.iNum).map f.list := by
  cases h with
  | filled h =>
      rw [← List.take_append_drop (MAX_DEVICE_NUM_PER_ADAPTER + 1) rows, readCameras_append h.entries,
        ← h.iNum]
      have hcount := h.iNum
      rw [List.length_take] at hcount
      by_cases hlong : MAX_DEVICE_NUM_PER_ADAPTER + 1 ≤ rows.length
      · exact List.take_left' (by simp; omega)
      · rw [List.drop_of_length_le (by omega)]
        simp only [DBHelper.readCameras, List.append_nil]
        exact List.take_of_length_le (by simp; omega)
  | halted m sqlrow hm hrow hnone h =>
      have hcount := h.iNum
      rw [List.length_take] at hcount
      rw [h.loaded hrow hnone]
      exact List.take_of_length_le (by simp; omega)

-- The list that a login takes over is the array up to the result.
theorem getGroupInfoEx_eq_load (query : QueryResult) :
    DBHelper.getGroupInfoEx query =
      if (DBHelper.loadGroupInfoEx query).1 < 0 then none
      else some ((List.range (DBHelper.loadGroupInfoEx query).1.toNat).map
        (DBHelper.loadGroupInfoEx query).2.list) := by
  cases query with
  | noConnection => rfl
  | failed => rfl
  | noResult => rfl
  | rows rows =>
      have hnonneg : ¬ (((fetchRows rows {}).iNum : Int) < 0) := by omega
      simp only [DBHelper.getGroupInfoEx, DBHelper.loadGroupInfoEx, Int.toNat_natCast,
        (fetchRows_all rows).loaded]
      exact (if_neg hnonneg).symm

-- And the writes that leave the array are the ones that `overruns` tells of.
theorem overruns_iff (rows : List Row) :
    DBHelper.overruns (.rows rows) = true ↔
      ∃ i ∈ (DBHelper.loadGroupInfoEx (.rows rows)).2.written, MAX_DEVICE_NUM_PER_ADAPTER ≤ i := by
  change _ ↔ ∃ i ∈ (fetchRows rows {}).written, MAX_DEVICE_NUM_PER_ADAPTER ≤ i
  have hover : DBHelper.overruns (.rows rows) = true ↔
      MAX_DEVICE_NUM_PER_ADAPTER ≤ (DBHelper.readCameras rows).length ∧
        ∃ sqlrow, rows[MAX_DEVICE_NUM_PER_ADAPTER]? = some sqlrow ∧ Headed sqlrow := by
    simp [DBHelper.overruns, Headed, Option.isSome_iff_ne_none, Option.any_eq_true]
  rw [hover]
  cases fetchRows_all rows with
  | filled h =>
      have hloaded := congrArg List.length (Ended.filled h).loaded
      have hcount := h.iNum
      rw [List.length_take, List.length_map, List.length_range] at hloaded
      rw [List.length_take] at hcount
      constructor
      · rintro ⟨-, sqlrow, hrow, -⟩
        have hlt := (List.getElem?_eq_some_iff.mp hrow).1
        refine ⟨MAX_DEVICE_NUM_PER_ADAPTER, (h.written _).mpr ?_, Nat.le_refl _⟩
        rw [List.length_take]
        omega
      · rintro ⟨i, hi, hle⟩
        have hlt := (h.written i).mp hi
        rw [List.length_take] at hlt
        have hrow := List.getElem?_eq_getElem (show MAX_DEVICE_NUM_PER_ADAPTER < rows.length by omega)
        refine ⟨by omega, _, hrow, (complete_of_entries h.entries _ ?_).1⟩
        exact List.mem_iff_getElem?.mpr ⟨MAX_DEVICE_NUM_PER_ADAPTER,
          by rw [List.getElem?_take_of_lt (Nat.lt_succ_self _), hrow]⟩
  | halted m sqlrow hm hrow hnone h =>
      have hlt := (List.getElem?_eq_some_iff.mp hrow).1
      have hlen : (DBHelper.readCameras rows).length = m := by
        rw [h.loaded hrow hnone, List.length_map, List.length_range, h.iNum, List.length_take]
        omega
      rw [hlen]
      constructor
      · rintro ⟨hle, row, hrow', hheaded⟩
        obtain rfl : m = MAX_DEVICE_NUM_PER_ADAPTER := by omega
        obtain rfl : sqlrow = row := Option.some.inj (hrow.symm.trans hrow')
        refine ⟨MAX_DEVICE_NUM_PER_ADAPTER, (h.written _).mpr (.inr ⟨?_, hheaded⟩), Nat.le_refl _⟩
        rw [List.length_take]
        omega
      · rintro ⟨i, hi, hle⟩
        rcases (h.written i).mp hi with hbefore | ⟨hlast, hheaded⟩
        · rw [List.length_take] at hbefore
          omega
        · rw [List.length_take] at hlast
          obtain rfl : m = MAX_DEVICE_NUM_PER_ADAPTER := by omega
          exact ⟨Nat.le_refl _, sqlrow, hrow, hheaded⟩

def plainRow : Row := fun i => [none, some "p", some "c", some "n", some "1"].getD i none

-- The row after a full array.
theorem loadGroupInfoEx_overflows :
    ¬ WithinArray (List.replicate 51 plainRow)
      (DBHelper.loadGroupInfoEx (.rows (List.replicate 51 plainRow))) := by
  intro hwithin
  have hlt := hwithin.written 50 (by decide +kernel)
  exact absurd hlt (by decide)

-- A load fails for want of a connection or of a result, or at a row among those fetched that
-- misses a column it must have.
def LoadFailed (query : QueryResult) (fetched : Nat) : Prop :=
  match query with
  | .noConnection => True
  | .failed => True
  | .noResult => True
  | .rows rows => ∃ sqlrow ∈ rows.take fetched, ¬ Complete sqlrow

-- A negative result stands for a failed load, and any other for the number of rows.
structure Reported (query : QueryResult) (out : Int × CameraFetch) : Prop where
  negative : out.1 < 0 ↔ LoadFailed query out.2.fetched
  count : ¬ LoadFailed query out.2.fetched → out.1 = out.2.fetched

-- A failure behind the connection is overwritten with the number of rows before it.
theorem loadGroupInfoEx_reported_iff (query : QueryResult) :
    Reported query (DBHelper.loadGroupInfoEx query) ↔
      match query with
      | .noConnection => True
      | .failed => False
      | .noResult => False
      | .rows rows => ∀ sqlrow ∈ rows.take (MAX_DEVICE_NUM_PER_ADAPTER + 1), Complete sqlrow := by
  cases query with
  | noConnection =>
      exact iff_of_true ⟨iff_of_true (by decide) trivial, fun hnot => absurd trivial hnot⟩ trivial
  | failed => exact iff_of_false (fun h => absurd (h.negative.mpr trivial) (by decide)) not_false
  | noResult => exact iff_of_false (fun h => absurd (h.negative.mpr trivial) (by decide)) not_false
  | rows rows =>
      have hret : DBHelper.loadGroupInfoEx (.rows rows) =
          (((fetchRows rows {}).iNum : Int), fetchRows rows {}) := rfl
      rw [hret]
      cases fetchRows_all rows with
      | filled h =>
          have hcomplete := complete_of_entries h.entries
          have hread : rows.take (rows.take (MAX_DEVICE_NUM_PER_ADAPTER + 1)).length =
              rows.take (MAX_DEVICE_NUM_PER_ADAPTER + 1) := by
            rw [List.length_take, List.take_eq_take_iff]
            omega
          have hgood : ¬ LoadFailed (.rows rows) (fetchRows rows {}).fetched := by
            rintro ⟨sqlrow, hmem, hnot⟩
            rw [h.fetched, hread] at hmem
            exact hnot (hcomplete sqlrow hmem)
          refine iff_of_true ⟨iff_of_false ?_ hgood, fun _ => ?_⟩ hcomplete
          · dsimp only
            omega
          · dsimp only
            rw [h.iNum, h.fetched]
      | halted m sqlrow hm hrow hnone h =>
          have hnot : ¬ Complete sqlrow := readCamera_eq_none_iff.mp hnone
          have hlt := (List.getElem?_eq_some_iff.mp hrow).1
          have hmem (n : Nat) (hn : m < n) : sqlrow ∈ rows.take n :=
            List.mem_iff_getElem?.mpr ⟨m, by rw [List.getElem?_take_of_lt hn, hrow]⟩
          refine iff_of_false (fun hreported => ?_) fun hall => hnot (hall sqlrow (hmem _ (by omega)))
          have hfailed : LoadFailed (.rows rows) (fetchRows rows {}).fetched := by
            refine ⟨sqlrow, hmem _ ?_, hnot⟩
            rw [h.fetched, List.length_take]
            omega
          have hnegative := hreported.negative.mpr hfailed
          dsimp only at hnegative
          omega

-- A statement that fails counts as an empty list.
theorem loadGroupInfoEx_unreported : ¬ Reported .failed (DBHelper.loadGroupInfoEx .failed) :=
  fun h => absurd (h.negative.mpr trivial) (by decide)

end VideoAdapter.Adapter

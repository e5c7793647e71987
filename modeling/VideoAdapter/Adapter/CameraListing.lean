import VideoAdapter.Adapter.CameraStore

namespace VideoAdapter.Adapter

open Lib

-- The entry that `get_group_info` makes of a row.
def Record.entry (record : Record) : CameraItem :=
  Db.readItem (record.row .cam) (atoi ((record "id").getD "")) ((record "allday").getD "")

-- A row without an id ends the loop, and one without `allday` has no result.
def Record.Listed (record : Record) : Prop := (record "id").isSome ∧ (record "allday").isSome

def CameraItem.windows (item : CameraItem) : Windows :=
  { s0 := item.s0, e0 := item.e0, s1 := item.s1, e1 := item.e1 }

-- The windows of an entry, where those of the schedule are `w`.
def shown (allday : Int) (w : Windows) : Windows :=
  if allday = 0 then w else { s0 := "00:00:00", e0 := "23:59:59" }

-- The entry has the data that the camera was added with.
structure Shows (mktime : Tm → Int) (info : TBDevice) (item : CameraItem) : Prop where
  name : item.name = info.name
  windows : ∃ iSize w, Db.schedule mktime info = some (iSize, w) ∧ item.windows = shown info.allday w
  addr : item.addr = info.broadcast_address

-- The user's list of the adapter's cameras has one entry of the camera, and it shows the data.
def ReadsBack (mktime : Tm → Int) (info : TBDevice) (kid : String) (s : Session) : Prop :=
  ∃ items item, Returns (Db.getGroupInfo kid info.groupid) s (0, items) ∧
    items.filter (fun item => item.devid = info.pid) = [item] ∧ Shows mktime info item

def adapterRows (db : Database) (groupid : String) : List Record :=
  (db.rows .cam).filter (holds [("cmsid", cstr groupid)])

-- The adapter's rows that read as a camera with this id.
def sameDevid (db : Database) (info : TBDevice) : List Record :=
  (adapterRows db info.groupid).filter fun record => record.entry.devid = info.pid

-- Arguments that a row of the camera table can hold.
structure Storable (mktime : Tm → Int) (info : TBDevice) : Prop where
  name : cText info.name = info.name
  windows : info.allday = 0 → ∀ iSize w, Db.schedule mktime info = some (iSize, w) → w.cTexts = w
  addr : info.broadcast_address = ""

-- The database goes along with the query, all rows can be read, and the new row is the one of
-- the camera. With a NUL in its id it is not; then an older row would have to be.
structure Listable (mktime : Tm → Int) (info : TBDevice) (db : Database) (luck : List Bool) : Prop where
  lucky : lucky 5 luck = true
  listed : ∀ record ∈ adapterRows db info.groupid, record.Listed
  entry : (cText info.pid = info.pid ∧ sameDevid db info = [] ∧ Storable mktime info) ∨
    (cText info.pid ≠ info.pid ∧ ∃ record, sameDevid db info = [record] ∧ Shows mktime info record.entry)

-- The loop reads all rows, or does not end with 0.
theorem readItems_zero_iff (records : List Record) (items : List CameraItem) :
    Db.readItems (records.map (·.row .cam)) = some (0, items) ↔
      (∀ record ∈ records, record.Listed) ∧ items = records.map Record.entry := by
  induction records generalizing items with
  | nil => simp [Db.readItems, eq_comm]
  | cons record rest ih =>
      have hid : record.row .cam 0 = record "id" := rfl
      have hday : record.row .cam 4 = record "allday" := rfl
      rw [List.map_cons, Db.readItems, hid, hday, List.forall_mem_cons, List.map_cons, Record.Listed]
      cases h0 : record "id" with
      | none => simp
      | some id =>
          cases h4 : record "allday" with
          | none => simp
          | some allday =>
              have hentry : Db.readItem (record.row .cam) (atoi id) allday = record.entry := by
                rw [Record.entry, h0, h4]
                rfl
              dsimp only
              rw [hentry]
              cases hrest : Db.readItems (rest.map (·.row .cam)) with
              | none =>
                  constructor
                  · intro h
                    cases h
                  · rintro ⟨⟨-, hlisted⟩, -⟩
                    have hall := (ih (rest.map Record.entry)).mpr ⟨hlisted, rfl⟩
                    rw [hrest] at hall
                    cases hall
              | some out =>
                  obtain ⟨ret, read⟩ := out
                  have hiff := ih read
                  rw [hrest] at hiff
                  constructor
                  · intro h
                    cases h
                    obtain ⟨hlisted, rfl⟩ := hiff.mp rfl
                    exact ⟨⟨⟨rfl, rfl⟩, hlisted⟩, rfl⟩
                  · rintro ⟨⟨-, hlisted⟩, rfl⟩
                    have hall := (ih (rest.map Record.entry)).mpr ⟨hlisted, rfl⟩
                    rw [hrest] at hall
                    cases hall
                    rfl

theorem getGroupInfo_entries {kid groupid : String} {s : Session} {items : List CameraItem} :
    Returns (Db.getGroupInfo kid groupid) s (0, items) ↔ lucky 5 s.luck = true ∧ Owns s.db kid groupid ∧
      (∀ record ∈ adapterRows s.db groupid, record.Listed) ∧
        items = (adapterRows s.db groupid).map Record.entry := by
  rw [Db.getGroupInfo_returns_zero, ← readItems_zero_iff]
  rfl

-- `add_device` does not look at the address.
theorem addDevice_address (mktime : Tm → Int) (info : TBDevice) (address strtime : String) :
    Db.addDevice mktime { info with broadcast_address := address } strtime =
      Db.addDevice mktime info strtime := rfl

section Added

variable {mktime : Tm → Int} {info : TBDevice} {iSize : Int} {w : Windows} {before : Database}

-- The new row, as the reader sees it.
theorem newRow_entry (hs : Db.schedule mktime info = some (iSize, w)) (hvalid : iSize ≠ -1)
    (strtime strkid strcustomerid : String) (id : Nat) :
    let record := assign (Db.newRow info iSize w strtime strkid strcustomerid) (blank id)
    record.Listed ∧ record.entry.devid = cText info.pid ∧ record.entry.name = cText info.name ∧
      record.entry.windows = shown info.allday w.cTexts ∧ record.entry.addr = "" := by
  by_cases hday : info.allday = 0
  · by_cases hsize : iSize = 2
    · refine ⟨⟨?_, ?_⟩, ?_, ?_, ?_, ?_⟩ <;>
        simp [Db.newRow, hday, hsize, cstr_eq, Record.entry, Record.row, column, Db.readItem,
          CameraItem.windows, shown, Windows.cTexts, blank]
    · have hw := schedule_single hs hvalid hsize
      refine ⟨⟨?_, ?_⟩, ?_, ?_, ?_, ?_⟩ <;>
        simp [Db.newRow, hday, hsize, cstr_eq, Record.entry, Record.row, column, Db.readItem,
          CameraItem.windows, shown, hw, blank]
  · refine ⟨⟨?_, ?_⟩, ?_, ?_, ?_, ?_⟩ <;>
      simp [Db.newRow, hday, cstr_eq, Record.entry, Record.row, column, Db.readItem,
        CameraItem.windows, shown, blank]

theorem newRow_shows_iff (hs : Db.schedule mktime info = some (iSize, w)) (hvalid : iSize ≠ -1)
    (strtime strkid strcustomerid : String) (id : Nat) :
    Shows mktime info (assign (Db.newRow info iSize w strtime strkid strcustomerid) (blank id)).entry ↔
      Storable mktime info := by
  obtain ⟨-, -, hname, hwindows, haddr⟩ := newRow_entry hs hvalid strtime strkid strcustomerid id
  constructor
  · rintro ⟨hname', ⟨iSize', w', hs', hwindows'⟩, haddr'⟩
    refine ⟨hname.symm.trans hname', fun hday iSize'' w'' hs'' => ?_, haddr'.symm.trans haddr⟩
    cases hs.symm.trans hs'
    cases hs.symm.trans hs''
    have hshown := hwindows.symm.trans hwindows'
    rw [shown, shown, if_pos hday, if_pos hday] at hshown
    exact hshown
  · intro hstorable
    refine ⟨hname.trans hstorable.name, ⟨iSize, w, hs, ?_⟩, haddr.trans hstorable.addr.symm⟩
    rw [hwindows]
    unfold shown
    split
    · rename_i hday
      exact hstorable.windows hday iSize w hs
    · rfl

-- The rows of the adapter after the insertion, and those of them with the camera's id.
theorem adapterRows_insert {db : Database} {record : Record} (hkey : record.key = keyOf info.groupid info.pid)
    (hrows : db.rows .cam = before.rows .cam ++ [record]) :
    adapterRows db info.groupid = adapterRows before info.groupid ++ [record] := by
  have hcms : record "cmsid" = some (cText info.groupid) := congrArg Prod.fst hkey
  have hholds : holds [("cmsid", cstr info.groupid)] record = true := by
    simp [holds, cstr_eq, SqlValue.equals, hcms]
  rw [adapterRows, hrows, List.filter_append, List.filter_singleton, hholds, adapterRows]
  rfl

theorem sameDevid_insert {db : Database} {record : Record} (hkey : record.key = keyOf info.groupid info.pid)
    (hdevid : record.entry.devid = cText info.pid)
    (hrows : db.rows .cam = before.rows .cam ++ [record]) :
    sameDevid db info = sameDevid before info ++ if cText info.pid = info.pid then [record] else [] := by
  rw [sameDevid, adapterRows_insert hkey hrows, List.filter_append, List.filter_singleton, hdevid, sameDevid]
  by_cases hcut : cText info.pid = info.pid
  · simp [hcut]
  · simp [hcut]

end Added

end VideoAdapter.Adapter

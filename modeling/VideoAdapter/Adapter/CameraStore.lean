import VideoAdapter.Lib.Keyed
import VideoAdapter.Adapter.Coherence
import VideoAdapter.Adapter.Outcomes

namespace VideoAdapter.Adapter

open Lib

-- What a statement carries of an argument, which is its C string.
def cText (s : String) : String := String.ofList (s.toList.takeWhile (· ≠ Char.ofNat 0))

theorem cstr_eq (s : String) : cstr s = .text (cText s) := rfl

def Windows.cTexts (w : Windows) : Windows :=
  { s0 := cText w.s0, e0 := cText w.e0, s1 := cText w.s1, e1 := cText w.e1 }

abbrev CameraKey := Option String × Option String

def Record.key (record : Record) : CameraKey := (record "cmsid", record "pid")

def keyOf (groupid pid : String) : CameraKey := (some (cText groupid), some (cText pid))

-- The camera table as a map from the keys.
def Database.cameras (db : Database) : CameraKey → Option Record := findKey Record.key (db.rows .cam)

-- A table as the three functions leave it.
structure Sound (db : Database) : Prop where
  distinct : ((db.rows .cam).map Record.key).Nodup
  named : ∀ record ∈ db.rows .cam, (record "name").isSome ∧ (record "datecreate").isSome

-- The camera that a request describes: its name, and the windows that its schedule comes to.
structure Describes (mktime : Tm → Int) (info : TBDevice) (record : Record) : Prop where
  name : record "name" = some (cText info.name)
  schedule : ∃ iSize w, Db.schedule mktime info = some (iSize, w) ∧
    record.effective = asked info.allday w.cTexts

inductive StoreCall where
  | add (info : TBDevice) (strtime : String)
  | del (groupid pid : String)
  | mod (info : TBDevice) (curtime : String)
deriving DecidableEq, Repr

namespace StoreCall

def prog (mktime : Tm → Int) : StoreCall → DbProg Int
  | .add info strtime => Db.addDevice mktime info strtime
  | .del groupid pid => Db.delDevice groupid pid
  | .mod info curtime => Db.modDevice mktime info curtime

def groupid : StoreCall → String
  | .add info _ => info.groupid
  | .del groupid _ => groupid
  | .mod info _ => info.groupid

def pid : StoreCall → String
  | .add info _ => info.pid
  | .del _ pid => pid
  | .mod info _ => info.pid

def key (call : StoreCall) : CameraKey := keyOf call.groupid call.pid

end StoreCall

-- A call with the interactions that go well or badly; a schedule that throws has no result.
def storeStep (mktime : Tm → Int) (db : Database) (event : StoreCall × List Bool) :
    Option (Database × Int) :=
  (DbProg.run (event.1.prog mktime) { db, luck := event.2 }).map fun out => (out.2.db, out.1)

-- The same where the database fails in nothing.
def calmStep (mktime : Tm → Int) (db : Database) (call : StoreCall) : Option (Database × Int) :=
  storeStep mktime db (call, [])

-- The finite map that the three functions are to be. `staffed` says that the adapter's row is
-- there with its user and customer.
def MapCall (mktime : Tm → Int) (staffed : Prop) (before : CameraKey → Option Record) (call : StoreCall)
    (ret : Int) (after : CameraKey → Option Record) : Prop :=
  match call with
  | .add info _ =>
      (staffed → (ret = 0 ↔ before call.key = none ∧ Accepted mktime info)) ∧
        (ret = 0 → ∃ record, Describes mktime info record ∧
          after = Function.update before call.key (some record))
  | .del _ _ =>
      (ret = 0 ↔ (before call.key).isSome) ∧ (ret = 2 ↔ before call.key = none) ∧
        (ret = 0 → after = Function.update before call.key none)
  | .mod info _ =>
      (ret = 0 ↔ (before call.key).isSome ∧ Accepted mktime info) ∧
        (ret = 0 → ∃ record, Describes mktime info record ∧
          after = Function.update before call.key (some record))

-- A call that does what it does to the map, and nothing where it reports a failure.
structure Conforms (mktime : Tm → Int) (before : Database) (call : StoreCall) (ret : Int)
    (after : Database) : Prop where
  distinct : ((after.rows .cam).map Record.key).Nodup
  refused : ret ≠ 0 → after = before
  call : MapCall mktime (Staffed before call.groupid) before.cameras call ret after.cameras

-- A modification with a valid schedule is of a camera that is there.
def modifiesPresent (mktime : Tm → Int) (_ : List (StoreCall × Int)) (db : Database) (call : StoreCall) :
    Prop :=
  match call with
  | .mod info _ => Accepted mktime info → (db.cameras call.key).isSome
  | _ => True

theorem holds_keyCond (groupid pid : String) (record : Record) :
    holds (Db.keyCond groupid pid) record = decide (record.key = keyOf groupid pid) := by
  simp [holds, Db.keyCond, cstr_eq, SqlValue.equals, Record.key, keyOf]

theorem free_iff_cameras {db : Database} {groupid pid : String} :
    Free db groupid pid ↔ db.cameras (keyOf groupid pid) = none := by
  unfold Free Database.cameras
  rw [findKey_eq_none_iff]
  exact forall₂_congr fun record _ => by rw [holds_keyCond, decide_eq_false_iff_not]

theorem Sound.deletable_iff {db : Database} (h : Sound db) {groupid pid : String} :
    Deletable db groupid pid ↔ (db.cameras (keyOf groupid pid)).isSome := by
  have hnone : db.cameras (keyOf groupid pid) = none ↔
      db.result (.select .cam (Db.keyCond groupid pid)) = [] :=
    free_iff_cameras.symm.trans result_select_eq_nil.symm
  rw [← not_iff_not, Option.not_isSome_iff_eq_none, hnone]
  unfold Deletable
  constructor
  · intro hnot
    by_contra hne
    obtain ⟨sqlrow, rest, hresult⟩ := List.exists_cons_of_ne_nil hne
    refine hnot ⟨sqlrow, rest, hresult, ?_⟩
    have hmem : sqlrow ∈ db.result (.select .cam (Db.keyCond groupid pid)) := by
      rw [hresult]
      exact List.mem_cons_self
    obtain ⟨record, hrecord, rfl⟩ := List.mem_map.mp hmem
    exact h.named record (List.mem_filter.mp hrecord).1
  · rintro hempty ⟨sqlrow, rest, hresult, -⟩
    rw [hempty] at hresult
    cases hresult

section Rows

variable {mktime : Tm → Int} {info : TBDevice} {iSize : Int} {w : Windows}

-- What a schedule other than of two windows leaves of the second.
theorem schedule_single (h : Db.schedule mktime info = some (iSize, w)) (hvalid : iSize ≠ -1)
    (hsize : iSize ≠ 2) : w.cTexts = { s0 := cText w.s0, e0 := cText w.e0 } := by
  have hempty : w.s1 = "" ∧ w.e1 = "" := by
    unfold Db.schedule at h
    split at h
    · rcases (parseTimeSection_accepted h hvalid).2 with ⟨-, hempty⟩ | ⟨htwo, -⟩
      · exact hempty
      · exact absurd htwo hsize
    · cases h
      exact ⟨rfl, rfl⟩
  have hcut : cText "" = "" := by decide
  rw [Windows.cTexts, hempty.1, hempty.2, hcut]

theorem newRow_describes (hs : Db.schedule mktime info = some (iSize, w)) (hvalid : iSize ≠ -1)
    (strtime strkid strcustomerid : String) (id : Nat) :
    let record := assign (Db.newRow info iSize w strtime strkid strcustomerid) (blank id)
    Describes mktime info record ∧ record.key = keyOf info.groupid info.pid ∧
      (record "datecreate").isSome := by
  by_cases hday : info.allday = 0
  · by_cases hsize : iSize = 2
    · refine ⟨⟨?_, iSize, w, hs, ?_⟩, ?_, ?_⟩ <;>
        simp [Db.newRow, hday, hsize, cstr_eq, Record.effective, asked, Record.key, keyOf,
          Windows.cTexts]
    · have hw := schedule_single hs hvalid hsize
      refine ⟨⟨?_, iSize, w, hs, ?_⟩, ?_, ?_⟩ <;>
        simp [Db.newRow, hday, hsize, cstr_eq, Record.effective, asked, Record.key, keyOf,
          blank, hw]
  · refine ⟨⟨?_, iSize, w, hs, ?_⟩, ?_, ?_⟩ <;>
      simp [Db.newRow, hday, cstr_eq, Record.effective, asked, Record.key, keyOf]

theorem changedRow_describes (hs : Db.schedule mktime info = some (iSize, w)) (hvalid : iSize ≠ -1)
    (curtime : String) (record : Record) :
    let changed := assign (Db.changedRow info iSize w curtime) record
    Describes mktime info changed ∧ changed.key = record.key ∧
      changed "datecreate" = record "datecreate" := by
  by_cases hday : info.allday = 0
  · by_cases hsize : iSize = 2
    · refine ⟨⟨?_, iSize, w, hs, ?_⟩, ?_, ?_⟩ <;>
        simp [Db.changedRow, hday, hsize, cstr_eq, Record.effective, asked, Record.key,
          Windows.cTexts]
    · have hw := schedule_single hs hvalid hsize
      refine ⟨⟨?_, iSize, w, hs, ?_⟩, ?_, ?_⟩ <;>
        simp [Db.changedRow, hday, hsize, cstr_eq, Record.effective, asked,
          Record.key, hw]
  · refine ⟨⟨?_, iSize, w, hs, ?_⟩, ?_, ?_⟩ <;>
      simp [Db.changedRow, hday, cstr_eq, Record.effective, asked, Record.key]

end Rows

-- The three statements as changes of the map.
section Statements

variable {mktime : Tm → Int} {db : Database} {info : TBDevice} {iSize : Int} {w : Windows}

theorem insert_cameras (h : Sound db) (hs : Db.schedule mktime info = some (iSize, w))
    (hvalid : iSize ≠ -1) (hfree : db.cameras (keyOf info.groupid info.pid) = none)
    (strtime strkid strcustomerid : String) :
    let after := db.apply (.insert .cam (Db.newRow info iSize w strtime strkid strcustomerid))
    Sound after ∧ ∃ record, Describes mktime info record ∧
      after.cameras = Function.update db.cameras (keyOf info.groupid info.pid) (some record) := by
  obtain ⟨hdescribes, hkey, hcreated⟩ := newRow_describes hs hvalid strtime strkid strcustomerid db.nextId
  unfold Database.cameras at hfree ⊢
  rw [← hkey] at hfree ⊢
  dsimp only
  rw [Database.apply_insert_rows]
  refine ⟨⟨?_, ?_⟩, _, hdescribes, findKey_append hfree⟩
  · rw [Database.apply_insert_rows]
    exact nodup_append_key h.distinct hfree
  · intro record hrecord
    rw [Database.apply_insert_rows] at hrecord
    rcases List.mem_append.mp hrecord with hrecord | hrecord
    · exact h.named record hrecord
    · rw [List.mem_singleton.mp hrecord]
      exact ⟨by rw [hdescribes.name]; rfl, hcreated⟩

theorem delete_cameras (h : Sound db) (groupid pid : String) :
    let after := db.apply (.delete .cam (Db.keyCond groupid pid))
    Sound after ∧ after.cameras = Function.update db.cameras (keyOf groupid pid) none := by
  have hrows : (db.apply (.delete .cam (Db.keyCond groupid pid))).rows .cam =
      (db.rows .cam).filter fun record => record.key ≠ keyOf groupid pid := by
    rw [Database.apply_delete_rows]
    refine List.filter_congr fun record _ => ?_
    rw [holds_keyCond, decide_not]
  dsimp only
  unfold Database.cameras
  refine ⟨⟨?_, fun record hrecord => ?_⟩, ?_⟩
  · rw [hrows]
    exact h.distinct.sublist (List.filter_sublist.map _)
  · rw [hrows] at hrecord
    exact h.named record (List.mem_filter.mp hrecord).1
  · rw [hrows]
    exact findKey_filter _

theorem update_cameras (h : Sound db) (hs : Db.schedule mktime info = some (iSize, w))
    (hvalid : iSize ≠ -1) (curtime : String) :
    let after := db.apply (.update .cam (Db.changedRow info iSize w curtime)
      [("pid", cstr info.pid), ("cmsid", cstr info.groupid)])
    Sound after ∧ after.cameras = Function.update db.cameras (keyOf info.groupid info.pid)
      ((db.cameras (keyOf info.groupid info.pid)).map (assign (Db.changedRow info iSize w curtime))) := by
  have hspec := changedRow_describes hs hvalid curtime
  have hrows : (db.apply (.update .cam (Db.changedRow info iSize w curtime)
      [("pid", cstr info.pid), ("cmsid", cstr info.groupid)])).rows .cam =
      (db.rows .cam).map fun record => if record.key = keyOf info.groupid info.pid then
        assign (Db.changedRow info iSize w curtime) record else record := by
    rw [Database.apply_update_rows]
    refine List.map_congr_left fun record _ => ?_
    simp only [holds_swap, holds_keyCond, decide_eq_true_eq]
  dsimp only
  unfold Database.cameras
  refine ⟨⟨?_, fun record hrecord => ?_⟩, ?_⟩
  · rw [hrows, List.map_map]
    refine (List.map_congr_left fun record _ => ?_) ▸ h.distinct
    rw [Function.comp_apply]
    split
    · exact (hspec record).2.1.symm
    · rfl
  · rw [hrows] at hrecord
    obtain ⟨old, hold, rfl⟩ := List.mem_map.mp hrecord
    split
    · have hcreated := (hspec old).2.2
      exact ⟨by rw [(hspec old).1.name]; rfl, by rw [hcreated]; exact (h.named old hold).2⟩
    · exact h.named old hold
  · rw [hrows]
    exact findKey_map (fun record => (hspec record).2.1) _

end Statements

section Calls

variable {mktime : Tm → Int} {before after : Database} {luck : List Bool} {ret : Int}

theorem storeStep_run {call : StoreCall} (hs : storeStep mktime before (call, luck) = some (after, ret)) :
    ∃ s, DbProg.run (call.prog mktime) { db := before, luck } = some (ret, s) ∧ after = s.db := by
  obtain ⟨⟨ret', s⟩, hrun, heq⟩ := Option.map_eq_some_iff.mp hs
  cases heq
  exact ⟨s, hrun, rfl⟩

-- What a call with the result 0 does to the map, whatever else goes wrong.
def Effect (mktime : Tm → Int) (before : CameraKey → Option Record) (call : StoreCall)
    (after : CameraKey → Option Record) : Prop :=
  match call with
  | .add info _ => before call.key = none ∧ ∃ record, Describes mktime info record ∧
      after = Function.update before call.key (some record)
  | .del _ _ => after = Function.update before call.key none
  | .mod info _ => ∃ f, (∀ record, Describes mktime info (f record)) ∧
      after = Function.update before call.key ((before call.key).map f)

theorem storeStep_cases (h : Sound before) {call : StoreCall}
    (hs : storeStep mktime before (call, luck) = some (after, ret)) :
    Sound after ∧ after.rows .camHis = before.rows .camHis ∧
      (ret ≠ 0 ∧ after = before ∨ ret = 0 ∧ Effect mktime before.cameras call after.cameras) := by
  obtain ⟨s, hrun, rfl⟩ := storeStep_run hs
  cases call with
  | add info strtime =>
      rcases Db.addDevice_run hrun with ⟨hret, hdb⟩ | ⟨hret, iSize, w, strkid, strcustomerid, hschedule,
        hvalid, hfree, hdb⟩
      · rw [hdb]
        exact ⟨h, rfl, .inl ⟨hret, rfl⟩⟩
      · have habsent : before.cameras (keyOf info.groupid info.pid) = none :=
          free_iff_cameras.mp fun record hrecord => by rw [← holds_swap]; exact hfree record hrecord
        have hinsert := insert_cameras h hschedule hvalid habsent strtime strkid strcustomerid
        rw [hdb]
        exact ⟨hinsert.1, rfl, .inr ⟨hret, habsent, hinsert.2⟩⟩
  | del groupid pid =>
      rcases Db.delDevice_run hrun with ⟨hret, hdb⟩ | ⟨hret, hdb⟩
      · rw [hdb]
        exact ⟨h, rfl, .inl ⟨hret, rfl⟩⟩
      · have hdelete := delete_cameras h groupid pid
        rw [hdb]
        exact ⟨hdelete.1, rfl, .inr ⟨hret, hdelete.2⟩⟩
  | mod info curtime =>
      rcases Db.modDevice_run hrun with ⟨hret, hdb⟩ | ⟨hret, iSize, w, hschedule, hvalid, hdb⟩
      · rw [hdb]
        exact ⟨h, rfl, .inl ⟨hret, rfl⟩⟩
      · have hupdate := update_cameras h hschedule hvalid curtime
        rw [hdb]
        refine ⟨hupdate.1, rfl, .inr ⟨hret, _, fun record => ?_, hupdate.2⟩⟩
        exact (changedRow_describes hschedule hvalid curtime record).1

-- The results, where the database fails in nothing.
theorem calmStep_add_zero {info : TBDevice} {strtime : String} (hstaffed : Staffed before info.groupid)
    (hs : calmStep mktime before (.add info strtime) = some (after, ret)) :
    ret = 0 ↔ before.cameras (keyOf info.groupid info.pid) = none ∧ Accepted mktime info := by
  obtain ⟨s, hrun, -⟩ := storeStep_run hs
  have hzero := (returns_iff hrun).symm.trans Db.addDevice_returns_zero
  rw [hzero, free_iff_cameras]
  simp [lucky_nil, hstaffed, and_comm]

theorem calmStep_del_zero (h : Sound before) {groupid pid : String}
    (hs : calmStep mktime before (.del groupid pid) = some (after, ret)) :
    ret = 0 ↔ (before.cameras (keyOf groupid pid)).isSome := by
  obtain ⟨s, hrun, -⟩ := storeStep_run hs
  have hzero := (returns_iff hrun).symm.trans Db.delDevice_returns_zero
  rw [hzero, h.deletable_iff]
  exact and_iff_right (lucky_nil 4)

theorem calmStep_del_absent {groupid pid : String}
    (hs : calmStep mktime before (.del groupid pid) = some (after, ret)) :
    ret = 2 ↔ before.cameras (keyOf groupid pid) = none := by
  obtain ⟨s, hrun, -⟩ := storeStep_run hs
  have habsent := (returns_iff hrun).symm.trans Db.delDevice_returns_absent
  rw [habsent, free_iff_cameras]
  exact and_iff_right (lucky_nil 3)

theorem calmStep_mod_zero {info : TBDevice} {curtime : String}
    (hs : calmStep mktime before (.mod info curtime) = some (after, ret)) :
    ret = 0 ↔ Accepted mktime info := by
  obtain ⟨s, hrun, -⟩ := storeStep_run hs
  have hzero := (returns_iff hrun).symm.trans Db.modDevice_returns_zero
  rw [hzero]
  exact and_iff_right (lucky_nil 2)

-- Only a modification can go wrong: it reports success for a camera that is not there.
theorem calmStep_conforms_iff (h : Sound before) {history : List (StoreCall × Int)} {call : StoreCall}
    (hs : calmStep mktime before call = some (after, ret)) :
    modifiesPresent mktime history before call ↔ Conforms mktime before call ret after := by
  obtain ⟨hsound, -, hcases⟩ := storeStep_cases h hs
  have hrefused : ret ≠ 0 → after = before := by
    intro hret
    rcases hcases with ⟨-, hsame⟩ | ⟨hzero, -⟩
    · exact hsame
    · exact absurd hzero hret
  have heffect : ret = 0 → Effect mktime before.cameras call after.cameras := by
    intro hret
    rcases hcases with ⟨hne, -⟩ | ⟨-, heffect⟩
    · exact absurd hret hne
    · exact heffect
  cases call with
  | add info strtime =>
      refine iff_of_true trivial ⟨hsound.distinct, hrefused, ?_, fun hret => (heffect hret).2⟩
      exact fun hstaffed => calmStep_add_zero hstaffed hs
  | del groupid pid =>
      refine iff_of_true trivial ⟨hsound.distinct, hrefused, ?_, ?_, heffect⟩
      · exact calmStep_del_zero h hs
      · exact calmStep_del_absent hs
  | mod info curtime =>
      have hzero := calmStep_mod_zero hs
      constructor
      · intro hpresent
        refine ⟨hsound.distinct, hrefused, ?_, fun hret => ?_⟩
        · rw [hzero]
          exact ⟨fun haccepted => ⟨hpresent haccepted, haccepted⟩, fun hboth => hboth.2⟩
        · obtain ⟨record, hrecord⟩ := Option.isSome_iff_exists.mp (hpresent (hzero.mp hret))
          obtain ⟨f, hdescribes, hmap⟩ := heffect hret
          refine ⟨f record, hdescribes record, ?_⟩
          rw [hmap, hrecord, Option.map_some]
      · intro hconforms haccepted
        exact (hconforms.call.1.mp (hzero.mpr haccepted)).1

end Calls

-- The store is the finite map along a run exactly when no modification with a valid schedule is
-- of a camera that is not there.
theorem store_conforms_iff (mktime : Tm → Int) (db : Database) (hsound : Sound db)
    {history : List (StoreCall × Int)} {final : Database}
    (run : Run (calmStep mktime) free db history final) :
    Run (calmStep mktime) (modifiesPresent mktime) db history final ↔
      ∀ call ret earlier before after, (call, ret) :: earlier <:+ history →
        Run (calmStep mktime) free db earlier before → calmStep mktime before call = some (after, ret) →
        Conforms mktime before call ret after := by
  refine run.guarded_iff_good (fun _ db => Sound db)
    (fun _ before call ret after => Conforms mktime before call ret after) hsound ?_ ?_
  · intro history before call after ret h hs
    exact calmStep_conforms_iff h hs
  · intro history before call after ret h hs _
    exact (storeStep_cases h hs).1

theorem sound_oneAdapter : Sound oneAdapter := ⟨List.nodup_nil, by simp [oneAdapter]⟩

def twoWindowCamera : TBDevice :=
  { allDayCamera with allday := 0, time_sec0 := "080000-120000", time_sec1 := "133000-170000" }

def storeCalls : List StoreCall :=
  [.add allDayCamera "2018-01-01 00:00:00", .mod twoWindowCamera "2018-01-02 00:00:00", .del "c" "p",
    .del "c" "p"]

-- A camera is added, modified and removed, and removed again to no effect.
theorem store_conforms_iff_removed : ∃ history final,
    Run (calmStep fun tm => tm.seconds) free oneAdapter history final ∧ history.map (·.2) = [2, 0, 0, 0] ∧
      ∀ call ret earlier before after, (call, ret) :: earlier <:+ history →
        Run (calmStep fun tm => tm.seconds) free oneAdapter earlier before →
        calmStep (fun tm => tm.seconds) before call = some (after, ret) →
        Conforms (fun tm => tm.seconds) before call ret after := by
  obtain ⟨history, final, run, htest⟩ := exists_run_of_ends (calmStep fun tm => tm.seconds)
    (modifiesPresent fun tm => tm.seconds) oneAdapter storeCalls
    (fun history _ => history.map (·.2) = [2, 0, 0, 0])
    (guarded_of_passes (fun _ db call => (db.cameras call.key).isSome || match call with
        | .mod _ _ => false
        | _ => true)
      (fun _ db call h => by
        cases call with
        | add info strtime => trivial
        | del groupid pid => trivial
        | mod info curtime => exact fun _ => by simpa using h)
      (by decide +kernel))
    (by decide +kernel)
  exact ⟨history, final, run.unguarded, of_decide_eq_true htest,
    (store_conforms_iff (fun tm => tm.seconds) oneAdapter sound_oneAdapter run.unguarded).mp run⟩

-- A camera that nobody has added is modified with success.
theorem absent_camera_modified : ∃ after,
    calmStep (fun tm => tm.seconds) oneAdapter (.mod allDayCamera "2018-01-01 00:00:00") =
      some (after, 0) ∧ oneAdapter.cameras (keyOf "c" "p") = none ∧
    ¬ Conforms (fun tm => tm.seconds) oneAdapter (.mod allDayCamera "2018-01-01 00:00:00") 0 after := by
  have habsent : oneAdapter.cameras (keyOf "c" "p") = none := rfl
  refine ⟨_, rfl, habsent, fun hconforms => ?_⟩
  have hpresent := (hconforms.call.1.mp rfl).1
  cases hpresent.symm.trans (congrArg Option.isSome habsent)

end VideoAdapter.Adapter

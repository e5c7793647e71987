import Mathlib.Data.List.TakeWhile
import VideoAdapter.Lib.FirstMatch
import VideoAdapter.Adapter.Cameras

namespace VideoAdapter.Adapter

open Lib

-- An argument that a statement carries unchanged. Arguments come from the URL of a GET request,
-- which has no NUL in it.
def Plain (s : String) : Prop := ∀ c ∈ s.toList, c ≠ '\'' ∧ c ≠ '\\' ∧ c ≠ Char.ofNat 0

instance (s : String) : Decidable (Plain s) :=
  List.decidableBAll (fun c => c ≠ '\'' ∧ c ≠ '\\' ∧ c ≠ Char.ofNat 0) s.toList

theorem cstr_of_plain {s : String} (h : Plain s) : cstr s = .text s := by
  have hall : s.toList.takeWhile (· ≠ Char.ofNat 0) = s.toList := by
    rw [List.takeWhile_eq_self_iff]
    exact fun c hc => decide_eq_true (h c hc).2.2
  rw [cstr, hall, String.ofList_toList]

-- A schedule in force: always, or the windows.
abbrev Effective := Option Windows

def DeviceNode.effective (p : DeviceNode) : Effective := if p.allday = 0 then some p.windows else none

theorem newCamera_effective (pid name : String) (allday : Int) (s0 e0 s1 e1 : String) :
    (newCamera pid name allday s0 e0 s1 e1).effective =
      if allday = 0 then some { s0, e0, s1, e1 } else none := by
  unfold newCamera
  dsimp only
  split
  · rename_i h
    simp [DeviceNode.effective, DeviceNode.windows, h]
  · rename_i h
    simp [DeviceNode.effective, h]

-- What a stored row says about the schedule.
def Record.effective (record : Record) : Effective :=
  if record "allday" = some "1" then none
  else some
    { s0 := (record "starttime1").getD "", e0 := (record "endtime1").getD "",
      s1 := (record "starttime2").getD "", e1 := (record "endtime2").getD "" }

-- A row as `add_device` and `mod_device` leave it.
structure Record.Good (record : Record) : Prop where
  pid : (record "pid").isSome
  name : (record "name").isSome
  allday : record "allday" = some "1" ∨ record "allday" = some "0" ∧
    (record "starttime1").isSome ∧ (record "endtime1").isSome ∧
      (record "starttime2").isSome = (record "endtime2").isSome

-- The camera of a good row.
def Record.camera (record : Record) : TBDeviceEx :=
  let camera : TBDeviceEx :=
    { pid := (record "pid").getD "", name := (record "name").getD "",
      allday := atoi ((record "allday").getD "") }
  match record.effective with
  | none => camera
  | some w => { camera with s0 := w.s0, e0 := w.e0, s1 := w.s1, e1 := w.e1 }

theorem readCamera_of_good {record : Record} (h : record.Good) :
    DBHelper.readCamera (record.row .cam) = some record.camera := by
  obtain ⟨pid, hpid⟩ := Option.isSome_iff_exists.mp h.pid
  obtain ⟨name, hname⟩ := Option.isSome_iff_exists.mp h.name
  rcases h.allday with hday | ⟨hday, hs0, he0, hsecond⟩
  · simp [DBHelper.readCamera, Record.row, column, hpid, hname, hday, Record.camera,
      Record.effective]
  · obtain ⟨s0, hs0⟩ := Option.isSome_iff_exists.mp hs0
    obtain ⟨e0, he0⟩ := Option.isSome_iff_exists.mp he0
    cases hs1 : record "starttime2" with
    | none =>
        have he1 : record "endtime2" = none := by simpa [hs1] using hsecond
        simp [DBHelper.readCamera, Record.row, column, hpid, hname, hday, hs0, he0, hs1, he1,
          Record.camera, Record.effective]
    | some s1 =>
        obtain ⟨e1, he1⟩ : ∃ e1, record "endtime2" = some e1 := by
          rw [← Option.isSome_iff_exists, ← hsecond, hs1]
          rfl
        simp [DBHelper.readCamera, Record.row, column, hpid, hname, hday, hs0, he0, hs1, he1,
          Record.camera, Record.effective]

theorem readCameras_of_good {records : List Record} (h : ∀ record ∈ records, record.Good) :
    DBHelper.readCameras (records.map (·.row .cam)) = records.map Record.camera := by
  induction records with
  | nil => rfl
  | cons record rest ih =>
      rw [List.map_cons, DBHelper.readCameras, readCamera_of_good (h record List.mem_cons_self)]
      dsimp only
      rw [ih fun r hr => h r (List.mem_cons_of_mem _ hr), List.map_cons]

-- The record that is loaded for a camera.
def TBDeviceEx.node (r : TBDeviceEx) : DeviceNode :=
  newCamera r.pid r.name r.allday r.s0 r.e0 r.s1 r.e1

theorem camera_node_effective {record : Record} (h : record.Good) :
    record.camera.node.effective = record.effective := by
  rw [TBDeviceEx.node, newCamera_effective]
  rcases h.allday with hday | ⟨hday, -⟩
  · simp [Record.camera, Record.effective, hday]
  · simp [Record.camera, Record.effective, hday]

-- With distinct ids, every loaded camera is found under its id.
theorem getElem?_foldl_addCamera (cameras : List TBDeviceEx) (pid : String)
    (hd : (cameras.map (·.pid)).Nodup) (devlist : DevList) :
    (cameras.foldl (fun devlist r => addCamera devlist r.pid r.name r.allday r.s0 r.e0 r.s1 r.e1)
      devlist)[pid]? =
      ((cameras.find? (·.pid = pid)).map TBDeviceEx.node).or devlist[pid]? := by
  induction cameras generalizing devlist with
  | nil => simp
  | cons r rest ih =>
      simp only [List.map_cons, List.nodup_cons] at hd
      rw [List.foldl_cons, ih hd.2, addCamera, Std.ExtTreeMap.getElem?_insert]
      by_cases hr : r.pid = pid
      · subst hr
        have hnone : rest.find? (fun x => decide (x.pid = r.pid)) = none := by
          rw [List.find?_eq_none]
          intro x hx hpid
          exact hd.1 (List.mem_map.mpr ⟨x, hx, of_decide_eq_true hpid⟩)
        simp [hnone, TBDeviceEx.node]
      · simp [hr]

theorem getElem?_loadRows (cameras : List TBDeviceEx) (pid : String)
    (hd : (cameras.map (·.pid)).Nodup) :
    (loadRows cameras)[pid]? = (cameras.find? (·.pid = pid)).map TBDeviceEx.node := by
  rw [loadRows, getElem?_foldl_addCamera cameras pid hd]
  simp

-- The rows of one adapter.
def ownRows (cmsid : String) (records : List Record) : List Record :=
  records.filter fun record => record "cmsid" = some cmsid

-- The schedule of a camera by the table.
def tableSchedule (records : List Record) (cmsid pid : String) : Option Effective :=
  ((ownRows cmsid records).find? fun record => record "pid" = some pid).map Record.effective

-- The rows of an adapter are good and no two of them have the same id.
structure Tidy (cmsid : String) (records : List Record) : Prop where
  good : ∀ record ∈ ownRows cmsid records, record.Good
  distinct : (ownRows cmsid records).Pairwise fun a b => a "pid" ≠ b "pid"

theorem mem_ownRows {cmsid : String} {records : List Record} {record : Record} :
    record ∈ ownRows cmsid records ↔ record ∈ records ∧ record "cmsid" = some cmsid := by
  simp [ownRows]

theorem camera_pid (record : Record) : record.camera.pid = (record "pid").getD "" := by
  unfold Record.camera
  dsimp only
  split <;> rfl

theorem Record.Good.camera_pid_iff {record : Record} (h : record.Good) (pid : String) :
    record.camera.pid = pid ↔ record "pid" = some pid := by
  obtain ⟨p, hp⟩ := Option.isSome_iff_exists.mp h.pid
  simp [camera_pid, hp]

theorem Tidy.nodup {cmsid : String} {records : List Record} (h : Tidy cmsid records) :
    (((ownRows cmsid records).map Record.camera).map (·.pid)).Nodup := by
  rw [List.map_map, List.Nodup, List.pairwise_map]
  refine List.Pairwise.imp_of_mem ?_ h.distinct
  intro a b ha hb hne hpid
  have hab := ((h.good a ha).camera_pid_iff b.camera.pid).mp hpid
  have hb' := ((h.good b hb).camera_pid_iff b.camera.pid).mp rfl
  exact hne (hab.trans hb'.symm)

-- A fresh load of a tidy table reads the schedules of the table.
theorem freshLoad_effective {cmsid : String} (hplain : Plain cmsid) {db : Database}
    (htidy : Tidy cmsid (db.rows .cam))
    (hfew : (ownRows cmsid (db.rows .cam)).length ≤ MAX_DEVICE_NUM_PER_ADAPTER) (pid : String) :
    (loadRows ((DBHelper.readCameras (db.result (.select .cam [("cmsid", cstr cmsid)]))).take
      (MAX_DEVICE_NUM_PER_ADAPTER + 1)))[pid]?.map DeviceNode.effective =
      tableSchedule (db.rows .cam) cmsid pid := by
  have hselect : db.result (.select .cam [("cmsid", cstr cmsid)]) =
      (ownRows cmsid (db.rows .cam)).map (·.row .cam) := by
    refine congrArg (List.map fun record : Record => record.row .cam) (List.filter_congr fun record _ => ?_)
    simp [holds, cstr_of_plain hplain, SqlValue.equals]
  have htake : ((ownRows cmsid (db.rows .cam)).map Record.camera).take (MAX_DEVICE_NUM_PER_ADAPTER + 1) =
      (ownRows cmsid (db.rows .cam)).map Record.camera :=
    List.take_of_length_le (by rw [List.length_map]; omega)
  have hsearch : (ownRows cmsid (db.rows .cam)).find? ((fun x => decide (x.pid = pid)) ∘ Record.camera) =
      (ownRows cmsid (db.rows .cam)).find? fun record => record "pid" = some pid :=
    find?_congr fun record hr => decide_eq_decide.mpr ((htidy.good record hr).camera_pid_iff pid)
  rw [hselect, readCameras_of_good htidy.good, htake, getElem?_loadRows _ _ htidy.nodup, tableSchedule,
    List.find?_map, hsearch]
  cases hfind : (ownRows cmsid (db.rows .cam)).find? fun record => record "pid" = some pid with
  | none => rfl
  | some record =>
      have hmem := List.mem_of_find?_eq_some hfind
      simp [camera_node_effective (htidy.good record hmem)]

-- The schedule that a request asks for.
def asked (allday : Int) (w : Windows) : Effective := if allday = 0 then some w else none

section Changes

variable {cmsid : String} {records : List Record}

theorem ownRows_append (record : Record) :
    ownRows cmsid (records ++ [record]) =
      ownRows cmsid records ++ if record "cmsid" = some cmsid then [record] else [] := by
  unfold ownRows
  rw [List.filter_append, List.filter_singleton]
  by_cases h : record "cmsid" = some cmsid <;> simp [h]

theorem tableSchedule_append_other {record : Record} (hcms : record "cmsid" ≠ some cmsid)
    (pid : String) : tableSchedule (records ++ [record]) cmsid pid = tableSchedule records cmsid pid := by
  rw [tableSchedule, ownRows_append, if_neg hcms, List.append_nil, tableSchedule]

-- A new row under a free id.
theorem tableSchedule_append_own {record : Record} {pid : String}
    (hcms : record "cmsid" = some cmsid) (hpid : record "pid" = some pid)
    (hfree : ∀ r ∈ ownRows cmsid records, r "pid" ≠ some pid) (other : String) :
    tableSchedule (records ++ [record]) cmsid other =
      if other = pid then some record.effective else tableSchedule records cmsid other := by
  rw [tableSchedule, ownRows_append, if_pos hcms, List.find?_append]
  split
  · rename_i heq
    subst heq
    have hnone : (ownRows cmsid records).find? (fun r => decide (r "pid" = some other)) = none := by
      rw [List.find?_eq_none]
      exact fun r hr hdec => hfree r hr (of_decide_eq_true hdec)
    simp [hnone, hpid]
  · rename_i hne
    simp [hpid, Ne.symm hne, tableSchedule]

theorem Tidy.append {record : Record} (h : Tidy cmsid records) (hgood : record.Good)
    (hfree : record "cmsid" = some cmsid → ∀ r ∈ ownRows cmsid records, r "pid" ≠ record "pid") :
    Tidy cmsid (records ++ [record]) := by
  by_cases hcms : record "cmsid" = some cmsid
  · constructor
    · intro r hr
      rw [ownRows_append, if_pos hcms] at hr
      rcases List.mem_append.mp hr with hr | hr
      · exact h.good r hr
      · rw [List.mem_singleton.mp hr]
        exact hgood
    · rw [ownRows_append, if_pos hcms, List.pairwise_append]
      refine ⟨h.distinct, List.pairwise_singleton _ _, fun a ha b hb => ?_⟩
      rw [List.mem_singleton.mp hb]
      exact hfree hcms a ha
  · have hsame : ownRows cmsid (records ++ [record]) = ownRows cmsid records := by
      rw [ownRows_append, if_neg hcms, List.append_nil]
    exact ⟨hsame ▸ h.good, hsame ▸ h.distinct⟩

theorem ownRows_filter (keep : Record → Bool) :
    ownRows cmsid (records.filter keep) = (ownRows cmsid records).filter keep := by
  unfold ownRows
  exact List.filter_comm _ _ _

theorem Tidy.filter (h : Tidy cmsid records) (keep : Record → Bool) :
    Tidy cmsid (records.filter keep) := by
  constructor
  · intro r hr
    rw [ownRows_filter] at hr
    exact h.good r (List.mem_filter.mp hr).1
  · rw [ownRows_filter]
    exact h.distinct.filter _

-- The rows of one key are gone.
theorem tableSchedule_filter {cmsid' pid : String} {keep : Record → Bool}
    (hkeep : ∀ r, keep r = false ↔ r "cmsid" = some cmsid' ∧ r "pid" = some pid) (other : String) :
    tableSchedule (records.filter keep) cmsid other =
      if cmsid = cmsid' ∧ other = pid then none else tableSchedule records cmsid other := by
  rw [tableSchedule, ownRows_filter, List.find?_filter]
  split
  · rename_i heq
    obtain ⟨rfl, rfl⟩ := heq
    rw [Option.map_eq_none_iff, List.find?_eq_none]
    intro r hr hfound
    obtain ⟨hkept, hpid⟩ := of_decide_eq_true hfound
    have hgone := (hkeep r).mpr ⟨(mem_ownRows.mp hr).2, of_decide_eq_true hpid⟩
    simp [hgone] at hkept
  · rename_i hne
    rw [tableSchedule]
    congr 1
    refine find?_congr fun r hr => ?_
    have hcms := (mem_ownRows.mp hr).2
    by_cases hpid : r "pid" = some other
    · have hkept : keep r = true := by
        rw [← Bool.not_eq_false]
        intro hgone
        obtain ⟨hcms', hpid'⟩ := (hkeep r).mp hgone
        exact hne ⟨Option.some.inj (hcms.symm.trans hcms'), Option.some.inj (hpid.symm.trans hpid')⟩
      simp [hpid, hkept]
    · simp [hpid]

-- A change of some rows that leaves their key as it is.
theorem ownRows_map {f : Record → Record} (hf : ∀ r, f r "cmsid" = r "cmsid") :
    ownRows cmsid (records.map f) = (ownRows cmsid records).map f := by
  unfold ownRows
  rw [List.filter_map]
  congr 1
  exact List.filter_congr fun r _ => by simp [hf]

theorem Tidy.map {f : Record → Record} (h : Tidy cmsid records) (hcms : ∀ r, f r "cmsid" = r "cmsid")
    (hpid : ∀ r, f r "pid" = r "pid") (hgood : ∀ r, r.Good → (f r).Good) :
    Tidy cmsid (records.map f) := by
  constructor
  · intro r hr
    rw [ownRows_map hcms] at hr
    obtain ⟨r', hr', rfl⟩ := List.mem_map.mp hr
    exact hgood r' (h.good r' hr')
  · rw [ownRows_map hcms, List.pairwise_map]
    simpa only [hpid] using h.distinct

theorem tableSchedule_map {f : Record → Record} {cmsid' pid : String} {v : Effective}
    (hcms : ∀ r, f r "cmsid" = r "cmsid") (hpid : ∀ r, f r "pid" = r "pid")
    (hchanged : ∀ r, r "cmsid" = some cmsid' → r "pid" = some pid → (f r).effective = v)
    (hother : ∀ r, ¬ (r "cmsid" = some cmsid' ∧ r "pid" = some pid) → f r = r) (other : String) :
    tableSchedule (records.map f) cmsid other =
      if cmsid = cmsid' ∧ other = pid then (tableSchedule records cmsid other).map fun _ => v
      else tableSchedule records cmsid other := by
  have hsearch : ((fun r : Record => decide (r "pid" = some other)) ∘ f) =
      fun r => decide (r "pid" = some other) := by
    funext r
    simp [hpid]
  rw [tableSchedule, ownRows_map hcms, List.find?_map, hsearch, tableSchedule]
  cases hfind : (ownRows cmsid records).find? fun r => decide (r "pid" = some other) with
  | none => simp
  | some r =>
      have hr := (mem_ownRows.mp (List.mem_of_find?_eq_some hfind)).2
      have hfound := List.find?_some hfind
      have hrpid : r "pid" = some other := of_decide_eq_true hfound
      split
      · rename_i heq
        obtain ⟨rfl, rfl⟩ := heq
        simp [hchanged r hr hrpid]
      · rename_i hne
        have hsame : f r = r := by
          refine hother r fun hkey => hne ⟨?_, ?_⟩
          · exact Option.some.inj (hr.symm.trans hkey.1)
          · exact Option.some.inj (hrpid.symm.trans hkey.2)
        simp [hsame]

end Changes

theorem plain_ofList {cs : List Char} {s : String} (hs : Plain s)
    (h : ∀ c ∈ cs, c = ':' ∨ c ∈ s.toList) : Plain (String.ofList cs) := by
  intro c hc
  rw [String.toList_ofList] at hc
  rcases h c hc with rfl | hmem
  · decide
  · exact hs c hmem

theorem withColons_plain {s : List Char} {sec out : String} (hsec : Plain sec)
    (hs : ∀ c ∈ s, c ∈ sec.toList) (h : withColons s = some out) : Plain out := by
  simp only [withColons, insertColon, Option.bind_eq_bind, Option.bind_eq_some_iff] at h
  obtain ⟨a, ha, b, hb, hout⟩ := h
  split at ha
  · cases ha
    split at hb
    · cases hb
      cases hout
      refine plain_ofList hsec fun c hc => ?_
      have hmem : c ∈ s.take 2 ++ ':' :: s.drop 2 ∨ c = ':' := by
        rcases List.mem_append.mp hc with hc | hc
        · exact .inl (List.mem_of_mem_take hc)
        · rcases List.mem_cons.mp hc with rfl | hc
          · exact .inr rfl
          · exact .inl (List.mem_of_mem_drop hc)
      rcases hmem with hc | rfl
      · rcases List.mem_append.mp hc with hc | hc
        · exact .inr (hs c (List.mem_of_mem_take hc))
        · rcases List.mem_cons.mp hc with rfl | hc
          · exact .inl rfl
          · exact .inr (hs c (List.mem_of_mem_drop hc))
      · exact .inl rfl
    · cases hb
  · cases ha

theorem parseSection_plain {mktime : Tm → Int} {sec s e : String} (hsec : Plain sec)
    (h : parseSection mktime sec = some (some (s, e))) : Plain s ∧ Plain e := by
  obtain ⟨-, hcut, -⟩ := parseSection_eq_accepted_iff.mp h
  simp only [cutSection, Option.bind_eq_bind, Option.pure_def, Option.bind_eq_some_iff] at hcut
  obtain ⟨s', hs', rest, hrest, e', he', hout⟩ := hcut
  cases hout
  exact ⟨withColons_plain hsec (fun c => (substrTo_sublist _ _).mem) hs',
    withColons_plain hsec (fun c => (substr_sublist hrest).mem) he'⟩

-- The windows that an accepted schedule leaves, as a statement carries them.
structure Windows.Stored (w : Windows) (iSize : Int) : Prop where
  s0 : Plain w.s0
  e0 : Plain w.e0
  s1 : Plain w.s1
  e1 : Plain w.e1
  one : iSize ≠ 2 → w.s1 = "" ∧ w.e1 = ""

theorem Windows.Stored.single {w : Windows} {iSize : Int} (h : w.Stored iSize) (hsize : iSize ≠ 2) :
    ({ s0 := w.s0, e0 := w.e0 } : Windows) = w := by
  obtain ⟨hs1, he1⟩ := h.one hsize
  cases w
  cases hs1
  cases he1
  rfl

theorem plain_empty : Plain "" := by
  intro c hc
  simp at hc

theorem parseTimeSection_stored {mktime : Tm → Int} {sec0 sec1 : String} (h0 : Plain sec0)
    (h1 : Plain sec1) {iSize : Int} {w : Windows}
    (h : parseTimeSection mktime sec0 sec1 {} = some (iSize, w)) (hvalid : iSize ≠ -1) :
    w.Stored iSize := by
  obtain ⟨hfirst, hrest⟩ := parseTimeSection_accepted h hvalid
  obtain ⟨hs0, he0⟩ := parseSection_plain h0 hfirst
  rcases hrest with ⟨-, hs1, he1⟩ | ⟨htwo, hsecond, -⟩
  · exact ⟨hs0, he0, hs1 ▸ plain_empty, he1 ▸ plain_empty, fun _ => ⟨hs1, he1⟩⟩
  · obtain ⟨hs1, he1⟩ := parseSection_plain h1 hsecond
    exact ⟨hs0, he0, hs1, he1, fun hne => absurd htwo hne⟩

theorem schedule_stored {mktime : Tm → Int} {info : TBDevice} {iSize : Int} {w : Windows}
    (h : Db.schedule mktime info = some (iSize, w)) (hvalid : iSize ≠ -1) (h0 : Plain info.time_sec0)
    (h1 : Plain info.time_sec1) : w.Stored iSize := by
  unfold Db.schedule at h
  split at h
  · exact parseTimeSection_stored h0 h1 h hvalid
  · cases h
    exact ⟨plain_empty, plain_empty, plain_empty, plain_empty, fun _ => ⟨rfl, rfl⟩⟩

-- The row that `add_device` inserts.
theorem newRow_spec (info : TBDevice) {iSize : Int} {w : Windows} (hw : w.Stored iSize)
    (hpid : Plain info.pid) (hcms : Plain info.groupid) (strtime strkid strcustomerid : String)
    (id : Nat) :
    let record := assign (Db.newRow info iSize w strtime strkid strcustomerid) (blank id)
    record.Good ∧ record "cmsid" = some info.groupid ∧ record "pid" = some info.pid ∧
      record.effective = asked info.allday w := by
  have hname : (cstr info.name).stored.isSome = true := rfl
  have hs0 := cstr_of_plain hw.s0
  have he0 := cstr_of_plain hw.e0
  have hs1 := cstr_of_plain hw.s1
  have he1 := cstr_of_plain hw.e1
  by_cases hday : info.allday = 0
  · by_cases hsize : iSize = 2
    · refine ⟨⟨?_, ?_, .inr ?_⟩, ?_, ?_, ?_⟩ <;>
        simp [Db.newRow, hday, hsize, cstr_of_plain hpid, cstr_of_plain hcms, hname, hs0, he0, hs1, he1,
          Record.effective, asked]
    · refine ⟨⟨?_, ?_, .inr ?_⟩, ?_, ?_, ?_⟩ <;>
        simp [Db.newRow, hday, hsize, cstr_of_plain hpid, cstr_of_plain hcms, hname, hs0, he0,
          Record.effective, asked, blank, hw.single hsize]
  · refine ⟨⟨?_, ?_, .inl ?_⟩, ?_, ?_, ?_⟩ <;>
      simp [Db.newRow, hday, cstr_of_plain hpid, cstr_of_plain hcms, hname, Record.effective,
        asked]

-- A row after `mod_device`: the key and the creation stay, the schedule is the one asked for.
theorem changedRow_spec (info : TBDevice) {iSize : Int} {w : Windows} (hw : w.Stored iSize)
    (curtime : String) (record : Record) :
    let changed := assign (Db.changedRow info iSize w curtime) record
    (record.Good → changed.Good) ∧ changed "cmsid" = record "cmsid" ∧ changed "pid" = record "pid" ∧
      changed.effective = asked info.allday w := by
  have hname : (cstr info.name).stored.isSome = true := rfl
  have hs0 := cstr_of_plain hw.s0
  have he0 := cstr_of_plain hw.e0
  have hs1 := cstr_of_plain hw.s1
  have he1 := cstr_of_plain hw.e1
  by_cases hday : info.allday = 0
  · by_cases hsize : iSize = 2
    · refine ⟨fun hgood => ⟨?_, ?_, .inr ?_⟩, ?_, ?_, ?_⟩
      · simpa [Db.changedRow, hday, hsize] using hgood.pid
      all_goals simp [Db.changedRow, hday, hsize, hname, hs0, he0, hs1, he1,
        Record.effective, asked]
    · refine ⟨fun hgood => ⟨?_, ?_, .inr ?_⟩, ?_, ?_, ?_⟩
      · simpa [Db.changedRow, hday, hsize] using hgood.pid
      all_goals simp [Db.changedRow, hday, hsize, hname, hs0, he0, Record.effective,
        asked, hw.single hsize]
  · refine ⟨fun hgood => ⟨?_, ?_, .inl ?_⟩, ?_, ?_, ?_⟩
    · simpa [Db.changedRow, hday] using hgood.pid
    all_goals simp [Db.changedRow, hday, hname, Record.effective, asked]

end VideoAdapter.Adapter

import VideoAdapter.Adapter.CameraStore

namespace VideoAdapter.Adapter

open Lib

abbrev StoreHistory := List ((StoreCall × List Bool) × Int)

-- The keys that `add_device` has reported as added.
def Added (history : StoreHistory) (key : CameraKey) : Prop :=
  ∃ info strtime luck, ((StoreCall.add info strtime, luck), 0) ∈ history ∧
    key = keyOf info.groupid info.pid

-- The key has a row, in the camera table or in its history.
def Kept (db : Database) (key : CameraKey) : Prop :=
  (db.cameras key).isSome ∨ ∃ row ∈ db.rows .camHis, row.key = key

-- The history has the camera of the row, with its name and creation time.
def Recorded (db : Database) (record : Record) : Prop :=
  ∃ row ∈ db.rows .camHis, row.key = record.key ∧ row "name" = record "name" ∧
    row "datecreate" = record "datecreate"

-- A step after which every camera ever added is still found, and after which the history has the
-- camera that the step has removed.
structure Preserves (history : StoreHistory) (before : Database) (event : StoreCall × List Bool)
    (ret : Int) (after : Database) : Prop where
  kept : ∀ key, Added ((event, ret) :: history) key → Kept after key
  recorded : ∀ groupid pid, event.1 = .del groupid pid → ret = 0 →
    ∀ record, before.cameras (keyOf groupid pid) = some record → Recorded after record

-- A camera is only removed, with all statements going well, when the history has it already.
def removesRecorded (_ : StoreHistory) (db : Database) (event : StoreCall × List Bool) : Prop :=
  match event.1 with
  | .del _ _ => lucky 4 event.2 = true → ∀ record, db.cameras event.1.key = some record → Recorded db record
  | _ => True

theorem added_cons {history : StoreHistory} {event : StoreCall × List Bool} {ret : Int} {key : CameraKey} :
    Added ((event, ret) :: history) key ↔
      ((∃ info strtime luck, event = (.add info strtime, luck) ∧ key = keyOf info.groupid info.pid) ∧
        ret = 0) ∨ Added history key := by
  unfold Added
  constructor
  · rintro ⟨info, strtime, luck, hmem, hkey⟩
    rcases List.mem_cons.mp hmem with heq | hmem
    · cases heq
      exact .inl ⟨⟨info, strtime, luck, rfl, hkey⟩, rfl⟩
    · exact .inr ⟨info, strtime, luck, hmem, hkey⟩
  · rintro (⟨⟨info, strtime, luck, rfl, hkey⟩, rfl⟩ | ⟨info, strtime, luck, hmem, hkey⟩)
    · exact ⟨info, strtime, luck, List.mem_cons_self, hkey⟩
    · exact ⟨info, strtime, luck, List.mem_cons_of_mem _ hmem, hkey⟩

section Steps

variable {mktime : Tm → Int} {before after : Database} {call : StoreCall} {luck : List Bool} {ret : Int}
  {history : StoreHistory}

theorem cameras_key {key : CameraKey} {record : Record} (h : before.cameras key = some record) :
    record.key = key := by
  have hfound := List.find?_some h
  exact of_decide_eq_true hfound

-- A key that is found stays found, but for the one that is removed.
theorem Effect.isSome {key : CameraKey}
    (heffect : Effect mktime before.cameras call after.cameras) (h : (before.cameras key).isSome)
    (hne : (∃ groupid pid, call = .del groupid pid) → key ≠ call.key) : (after.cameras key).isSome := by
  cases call with
  | add info strtime =>
      obtain ⟨-, record, -, hmap⟩ := heffect
      rw [hmap, Function.update_apply]
      split
      · rfl
      · exact h
  | del groupid pid =>
      rw [Effect] at heffect
      rw [heffect, Function.update_of_ne (hne ⟨groupid, pid, rfl⟩)]
      exact h
  | mod info curtime =>
      obtain ⟨f, -, hmap⟩ := heffect
      rw [hmap, Function.update_apply]
      split
      · rename_i hkey
        rw [← hkey, Option.isSome_map]
        exact h
      · exact h

theorem storeStep_kept (h : Sound before) (hkept : ∀ key, Added history key → Kept before key)
    (hs : storeStep mktime before (call, luck) = some (after, ret))
    (hguard : removesRecorded history before (call, luck)) :
    ∀ key, Added (((call, luck), ret) :: history) key → Kept after key := by
  intro key hadded
  obtain ⟨-, hhistory, hcases⟩ := storeStep_cases h hs
  rcases hcases with ⟨hne, hsame⟩ | ⟨hzero, heffect⟩
  · rw [hsame]
    exact hkept key ((added_cons.mp hadded).resolve_left fun hnew => hne hnew.2)
  · rcases added_cons.mp hadded with ⟨⟨info, strtime, luck', heq, hkey⟩, -⟩ | hold
    · cases heq
      obtain ⟨-, record, -, hmap⟩ := heffect
      refine .inl ?_
      rw [hmap, hkey, StoreCall.key, StoreCall.groupid, StoreCall.pid, Function.update_self]
      rfl
    · rcases hkept key hold with hsome | hrow
      · by_cases hgone : (∃ groupid pid, call = .del groupid pid) ∧ key = call.key
        · obtain ⟨⟨groupid, pid, rfl⟩, rfl⟩ := hgone
          obtain ⟨s, hrun, -⟩ := storeStep_run hs
          have hlucky := (Db.delDevice_returns_zero.mp ((returns_iff hrun).mpr hzero)).1
          obtain ⟨record, hrecord⟩ := Option.isSome_iff_exists.mp hsome
          obtain ⟨row, hrow, hrowkey, -⟩ := hguard hlucky record hrecord
          exact .inr ⟨row, hhistory ▸ hrow, hrowkey.trans (cameras_key hrecord)⟩
        · exact .inl (heffect.isSome hsome fun hdel hkey => hgone ⟨hdel, hkey⟩)
      · exact .inr (hhistory ▸ hrow)

theorem storeStep_preserves_iff (h : Sound before) (hkept : ∀ key, Added history key → Kept before key)
    (hs : storeStep mktime before (call, luck) = some (after, ret)) :
    removesRecorded history before (call, luck) ↔ Preserves history before (call, luck) ret after := by
  obtain ⟨-, hhistory, -⟩ := storeStep_cases h hs
  have hrecorded : ∀ record, Recorded after record ↔ Recorded before record := by
    intro record
    unfold Recorded
    rw [hhistory]
  constructor
  · intro hguard
    refine ⟨storeStep_kept h hkept hs hguard, ?_⟩
    rintro groupid pid rfl hzero record hrecord
    obtain ⟨s, hrun, -⟩ := storeStep_run hs
    have hlucky := (Db.delDevice_returns_zero.mp ((returns_iff hrun).mpr hzero)).1
    exact (hrecorded record).mpr (hguard hlucky record hrecord)
  · intro hpreserves
    cases call with
    | add info strtime => trivial
    | mod info curtime => trivial
    | del groupid pid =>
        intro hlucky record hrecord
        obtain ⟨s, hrun, -⟩ := storeStep_run hs
        have hfound : Deletable before groupid pid :=
          h.deletable_iff.mpr (Option.isSome_iff_exists.mpr ⟨record, hrecord⟩)
        have hzero := (returns_iff hrun).mp (Db.delDevice_returns_zero.mpr ⟨hlucky, hfound⟩)
        exact (hrecorded record).mp (hpreserves.recorded groupid pid rfl hzero record hrecord)

end Steps

-- Nothing is ever written to the history, so no camera is lost along a run exactly when each one
-- that is removed has a row there before.
theorem run_preserves_iff (mktime : Tm → Int) (db : Database) (hsound : Sound db) {history : StoreHistory}
    {final : Database} (run : Run (storeStep mktime) free db history final) :
    Run (storeStep mktime) removesRecorded db history final ↔
      ∀ event ret earlier before after, (event, ret) :: earlier <:+ history →
        Run (storeStep mktime) free db earlier before → storeStep mktime before event = some (after, ret) →
        Preserves earlier before event ret after := by
  refine run.guarded_iff_good (fun history db => Sound db ∧ ∀ key, Added history key → Kept db key)
    Preserves ⟨hsound, ?_⟩ ?_ ?_
  · rintro key ⟨info, strtime, luck, hmem, -⟩
    cases hmem
  · rintro history before ⟨call, luck⟩ after ret ⟨h, hkept⟩ hs
    exact storeStep_preserves_iff h hkept hs
  · rintro history before ⟨call, luck⟩ after ret ⟨h, -⟩ hs hpreserves
    exact ⟨(storeStep_cases h hs).1, hpreserves.kept⟩

-- A camera is added, and the statement that would remove it fails.
theorem run_preserves_iff_failed : ∃ history final,
    Run (storeStep fun tm => tm.seconds) free oneAdapter history final ∧ history.map (·.2) = [1, 0] ∧
      ∀ event ret earlier before after, (event, ret) :: earlier <:+ history →
        Run (storeStep fun tm => tm.seconds) free oneAdapter earlier before →
        storeStep (fun tm => tm.seconds) before event = some (after, ret) →
        Preserves earlier before event ret after := by
  obtain ⟨history, final, run, htest⟩ := exists_run_of_ends (storeStep fun tm => tm.seconds)
    removesRecorded oneAdapter
    [(.add allDayCamera "2018-01-01 00:00:00", []), (.del "c" "p", [true, true, true, false])]
    (fun history _ => history.map (·.2) = [1, 0])
    (guarded_of_passes (fun _ _ event => match event.1 with
        | .del _ _ => !lucky 4 event.2
        | _ => true)
      (fun _ db event h => by
        obtain ⟨call, luck⟩ := event
        cases call with
        | add info strtime => trivial
        | mod info curtime => trivial
        | del groupid pid =>
            intro hlucky
            dsimp only at h hlucky
            rw [hlucky] at h
            cases h)
      (by decide +kernel))
    (by decide +kernel)
  exact ⟨history, final, run.unguarded, of_decide_eq_true htest,
    (run_preserves_iff (fun tm => tm.seconds) oneAdapter sound_oneAdapter run.unguarded).mp run⟩

-- A camera is added and removed, and neither table knows of it.
theorem removed_camera_vanishes : ∃ history final,
    Run (storeStep fun tm => tm.seconds) free oneAdapter history final ∧
      Added history (keyOf "c" "p") ∧ ¬ Kept final (keyOf "c" "p") := by
  obtain ⟨history, final, run, htest⟩ := exists_run_of_ends (storeStep fun tm => tm.seconds) free
    oneAdapter [(.add allDayCamera "2018-01-01 00:00:00", []), (.del "c" "p", [])]
    (fun history final => history[1]? = some ((.add allDayCamera "2018-01-01 00:00:00", []), 0) ∧
      final.cameras (keyOf "c" "p") = none ∧ final.rows .camHis = [])
    (guarded_free _ _ _) (by decide +kernel)
  obtain ⟨hadded, habsent, hempty⟩ := of_decide_eq_true htest
  refine ⟨history, final, run, ⟨_, _, _, List.mem_of_getElem? hadded, rfl⟩, ?_⟩
  rintro (hsome | ⟨row, hrow, -⟩)
  · rw [habsent] at hsome
    cases hsome
  · rw [hempty] at hrow
    cases hrow

end VideoAdapter.Adapter

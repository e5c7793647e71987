import VideoAdapter.Adapter.Database

namespace VideoAdapter.Adapter

open Lib

-- The next `n` interactions with the database go well.
def lucky : Nat → List Bool → Bool
  | 0, _ => true
  | n + 1, luck => luck.headD true && lucky n luck.tail

theorem lucky_nil (n : Nat) : lucky n [] = true := by
  induction n with
  | zero => rfl
  | succ n ih => exact ih

namespace Session

variable {s : Session}

def good (s : Session) : Bool := s.luck.headD true

def skip (s : Session) : Session := { s with luck := s.luck.tail }

-- The session after a statement that went well.
def executed (s : Session) (sql : Sql) : Session :=
  { s.skip with db := s.db.apply sql, result := s.db.result sql }

theorem draw_eq (s : Session) : s.draw = (s.good, s.skip) := by
  obtain ⟨db, luck, result⟩ := s
  cases luck with
  | nil => rfl
  | cons ok luck => rfl

theorem answer_execute (s : Session) {sql : Sql} (hsql : sql ≠ .empty) :
    s.answer (.execute sql) = if s.good then (true, s.executed sql) else (false, s.skip) := by
  simp only [answer, draw_eq]
  cases s.good with
  | true => simp [hsql, executed, skip]
  | false => simp

theorem answer_storeResult (s : Session) :
    s.answer .storeResult = (if s.good then some s.result else none, s.skip) := by
  simp only [answer, draw_eq]

end Session

-- A run of the program ends with this result.
def Returns {α : Type} (prog : DbProg α) (s : Session) (ret : α) : Prop :=
  ∃ s', DbProg.run prog s = some (ret, s')

theorem returns_iff {α : Type} {prog : DbProg α} {s s' : Session} {ret ret' : α}
    (hrun : DbProg.run prog s = some (ret, s')) : Returns prog s ret' ↔ ret = ret' := by
  unfold Returns
  rw [hrun]
  simp

section Returns

variable {α : Type} {failure ret : α} {s : Session} {body k : DbProg α}

theorem returns_pure (r : α) : Returns (pure r) s ret ↔ r = ret := by
  constructor
  · rintro ⟨s', h⟩
    cases h
    rfl
  · rintro rfl
    exact ⟨s, rfl⟩

theorem returns_stuck : ¬ Returns .stuck s ret := by
  rintro ⟨s', h⟩
  cases h

theorem returns_recycle :
    Returns (do let ret ← body; recycleConnection; return ret) s ret ↔ Returns body s ret := by
  constructor
  · rintro ⟨s', h⟩
    exact ⟨s', DbProg.run_recycle h⟩
  · rintro ⟨s', h⟩
    refine ⟨s', ?_⟩
    unfold DbProg.run at h ⊢
    rw [Prog.run_bind, h]
    rfl

-- Each step goes well, or the result is that of its failure.
theorem returns_fetch (hne : failure ≠ ret) :
    Returns (do
      if !(← fetchConnection) then return failure
      let ret ← body
      recycleConnection
      return ret) s ret ↔ s.good = true ∧ Returns body s.skip ret := by
  have hbody : Returns body s.skip ret ↔ _ := returns_recycle.symm
  rw [hbody]
  unfold Returns
  have hrun : ∀ next : Bool → DbProg α,
      DbProg.run (fetchConnection >>= next) s = DbProg.run (next s.draw.1) s.draw.2 := fun _ => rfl
  rw [hrun, Session.draw_eq]
  cases s.good with
  | true => exact (and_iff_right rfl).symm
  | false => exact ⟨fun h => absurd ((returns_pure failure).mp h) hne, fun h => absurd h.1 (by decide)⟩

theorem returns_execute {sql : Sql} (hsql : sql ≠ .empty) (hne : failure ≠ ret) :
    Returns (do if !(← executeSql sql) then return failure else k) s ret ↔
      s.good = true ∧ Returns k (s.executed sql) ret := by
  unfold Returns
  have hrun : ∀ next : Bool → DbProg α, DbProg.run (executeSql sql >>= next) s =
      DbProg.run (next (s.answer (.execute sql)).1) (s.answer (.execute sql)).2 := fun _ => rfl
  rw [hrun, Session.answer_execute s hsql]
  cases s.good with
  | true => simp
  | false => exact ⟨fun h => absurd ((returns_pure failure).mp h) hne, fun h => absurd h.1 (by decide)⟩

theorem returns_select {next : Option (List Row) → DbProg α} {table : Table}
    {cond : List (String × SqlValue)} (hne : failure ≠ ret) (hnone : ∀ s, ¬ Returns (next none) s ret) :
    Returns (do
      if !(← executeSql (.select table cond)) then return failure
      else storeResult >>= next) s ret ↔
    s.good = true ∧ s.skip.good = true ∧
      Returns (next (some (s.db.result (.select table cond))))
        (s.executed (.select table cond)).skip ret := by
  rw [returns_execute Sql.noConfusion hne]
  refine and_congr_right fun _ => ?_
  have hrun : DbProg.run (storeResult >>= next) (s.executed (.select table cond)) =
      DbProg.run (next ((s.executed (.select table cond)).answer .storeResult).1)
        ((s.executed (.select table cond)).answer .storeResult).2 := rfl
  unfold Returns
  rw [hrun, Session.answer_storeResult]
  have hgood : (s.executed (.select table cond)).good = s.skip.good := rfl
  rw [hgood]
  cases s.skip.good with
  | true => simp [Session.executed]
  | false => exact ⟨fun h => absurd h (hnone _), fun h => absurd h.1 (by decide)⟩

end Returns

-- A schedule that `add_device` and `mod_device` take.
def Accepted (mktime : Tm → Int) (info : TBDevice) : Prop :=
  ∃ iSize w, Db.schedule mktime info = some (iSize, w) ∧ iSize ≠ -1

-- No camera is stored under the key.
def Free (db : Database) (cmsid pid : String) : Prop :=
  ∀ record ∈ db.rows .cam, holds (Db.keyCond cmsid pid) record = false

-- The first row of the adapter has a user and a customer.
def Staffed (db : Database) (cmsid : String) : Prop :=
  ∃ sqlrow rest, db.result (.select .ada [("cmsid", cstr cmsid)]) = sqlrow :: rest ∧
    (sqlrow 5).isSome ∧ (sqlrow 6).isSome

-- The first row of the key has a name and a creation time.
def Deletable (db : Database) (cmsid pid : String) : Prop :=
  ∃ sqlrow rest, db.result (.select .cam (Db.keyCond cmsid pid)) = sqlrow :: rest ∧
    (sqlrow 3).isSome ∧ (sqlrow 9).isSome

-- The adapter has a row that `get_group_info` accepts for the user.
def Owns (db : Database) (kid groupid : String) : Prop :=
  ∃ record ∈ db.rows .ada, holds [("cmsid", cstr groupid), ("user", .int (atoi kid))] record = true

theorem holds_swap (cmsid pid : String) (record : Record) :
    holds [("pid", cstr pid), ("cmsid", cstr cmsid)] record = holds (Db.keyCond cmsid pid) record := by
  simp [holds, Db.keyCond, Bool.and_comm]

theorem result_select_eq_nil {db : Database} {table : Table} {cond : List (String × SqlValue)} :
    db.result (.select table cond) = [] ↔ ∀ record ∈ db.rows table, holds cond record = false := by
  simp [Database.result]

namespace Db

variable {mktime : Tm → Int} {info : TBDevice} {strtime curtime groupid pid : String} {s : Session}

theorem failed_ne_zero : (1 : Int) ≠ 0 := by decide

theorem addDevice_body_returns_zero (iSize : Int) (w : Windows) :
    Returns (addDevice.body info iSize w strtime) s 0 ↔
      lucky 5 s.luck = true ∧ Free s.db info.groupid info.pid ∧ Staffed s.db info.groupid := by
  have hfree : Free s.db info.groupid info.pid ↔
      s.db.result (.select .cam [("pid", cstr info.pid), ("cmsid", cstr info.groupid)]) = [] := by
    rw [result_select_eq_nil]
    exact forall₂_congr fun record _ => by rw [holds_swap]
  rw [hfree]
  unfold addDevice.body
  rw [returns_select failed_ne_zero (by simp [returns_pure])]
  cases hrows : s.db.result (.select .cam [("pid", cstr info.pid), ("cmsid", cstr info.groupid)]) with
  | cons sqlrow rest => simp [returns_pure]
  | nil =>
      dsimp only
      rw [returns_select failed_ne_zero (by simp [returns_pure])]
      have hdb : (s.executed (.select .cam [("pid", cstr info.pid), ("cmsid", cstr info.groupid)])).skip.db =
          s.db := rfl
      rw [hdb]
      unfold Staffed
      cases s.db.result (.select .ada [("cmsid", cstr info.groupid)]) with
      | nil => simp [returns_pure]
      | cons sqlrow rest =>
          dsimp only
          cases h5 : sqlrow 5 with
          | none => simp [returns_pure, h5]
          | some strkid =>
              cases h6 : sqlrow 6 with
              | none => simp [returns_pure, h6]
              | some strcustomerid =>
                  dsimp only
                  rw [returns_execute Sql.noConfusion failed_ne_zero, returns_pure]
                  simp [lucky, h5, h6, Session.good, Session.skip, Session.executed, and_assoc]

theorem addDevice_returns_zero : Returns (addDevice mktime info strtime) s 0 ↔
    lucky 6 s.luck = true ∧ Accepted mktime info ∧ Free s.db info.groupid info.pid ∧
      Staffed s.db info.groupid := by
  unfold addDevice Accepted
  cases hschedule : schedule mktime info with
  | none => simp [returns_stuck]
  | some out =>
      obtain ⟨iSize, w⟩ := out
      dsimp only
      by_cases hinvalid : iSize = -1
      · simp [hinvalid, returns_pure]
      · rw [if_neg hinvalid, returns_fetch failed_ne_zero, addDevice_body_returns_zero]
        simp [lucky, hinvalid, Session.good, Session.skip, and_assoc]

-- 2 stands for a key without a row, and for nothing else.
theorem delDevice_returns_absent : Returns (delDevice groupid pid) s 2 ↔
    lucky 3 s.luck = true ∧ Free s.db groupid pid := by
  have hne : (1 : Int) ≠ 2 := by decide
  have hfree : Free s.db groupid pid ↔ s.db.result (.select .cam (keyCond groupid pid)) = [] :=
    result_select_eq_nil.symm
  unfold delDevice
  rw [hfree, returns_fetch hne]
  unfold delDevice.body
  rw [returns_select hne (by simp [returns_pure])]
  unfold keyCond
  have hdb : s.skip.db = s.db := rfl
  rw [hdb]
  cases s.db.result (.select .cam [("cmsid", cstr groupid), ("pid", cstr pid)]) with
  | nil => simp [returns_pure, lucky, Session.good, Session.skip]
  | cons sqlrow rest =>
      dsimp only
      cases sqlrow 3 with
      | none => simp [returns_pure]
      | some name =>
          cases sqlrow 9 with
          | none => simp [returns_pure]
          | some datecreate =>
              dsimp only
              rw [returns_execute Sql.noConfusion hne, returns_pure]
              simp

theorem delDevice_returns_zero : Returns (delDevice groupid pid) s 0 ↔
    lucky 4 s.luck = true ∧ Deletable s.db groupid pid := by
  unfold delDevice
  rw [returns_fetch failed_ne_zero]
  unfold delDevice.body
  rw [returns_select failed_ne_zero (by simp [returns_pure])]
  unfold Deletable keyCond
  have hdb : s.skip.db = s.db := rfl
  rw [hdb]
  cases s.db.result (.select .cam [("cmsid", cstr groupid), ("pid", cstr pid)]) with
  | nil => simp [returns_pure]
  | cons sqlrow rest =>
      dsimp only
      cases h3 : sqlrow 3 with
      | none => simp [returns_pure, h3]
      | some name =>
          cases h9 : sqlrow 9 with
          | none => simp [returns_pure, h9]
          | some datecreate =>
              dsimp only
              rw [returns_execute Sql.noConfusion failed_ne_zero, returns_pure]
              simp [lucky, h3, h9, Session.good, Session.skip, Session.executed, and_assoc]

theorem modDevice_returns_zero : Returns (modDevice mktime info curtime) s 0 ↔
    lucky 2 s.luck = true ∧ Accepted mktime info := by
  unfold modDevice Accepted
  cases hschedule : schedule mktime info with
  | none => simp [returns_stuck]
  | some out =>
      obtain ⟨iSize, w⟩ := out
      dsimp only
      by_cases hinvalid : iSize = -1
      · simp [hinvalid, returns_pure]
      · rw [if_neg hinvalid, returns_fetch failed_ne_zero]
        unfold modDevice.body
        rw [returns_execute Sql.noConfusion failed_ne_zero, returns_pure]
        simp [lucky, hinvalid, Session.good, Session.skip]

theorem getGroupInfo_returns_zero {kid : String} {items : List CameraItem} :
    Returns (getGroupInfo kid groupid) s (0, items) ↔
      lucky 5 s.luck = true ∧ Owns s.db kid groupid ∧
        readItems (s.db.result (.select .cam [("cmsid", cstr groupid)])) = some (0, items) := by
  have hne : ((1 : Int), ([] : List CameraItem)) ≠ (0, items) := by simp
  have howns : Owns s.db kid groupid ↔
      s.db.result (.select .ada [("cmsid", cstr groupid), ("user", .int (atoi kid))]) ≠ [] := by
    rw [Ne, result_select_eq_nil]
    simp [Owns]
  unfold getGroupInfo
  rw [howns, returns_fetch hne]
  unfold getGroupInfo.body
  rw [returns_select hne (by simp [returns_pure])]
  have hdb : s.skip.db = s.db := rfl
  rw [hdb]
  cases s.db.result (.select .ada [("cmsid", cstr groupid), ("user", .int (atoi kid))]) with
  | nil => simp [returns_pure]
  | cons sqlrow rest =>
      dsimp only
      rw [returns_select hne (by simp [returns_pure])]
      have hdb' : ∀ sql, (s.skip.executed (.select .ada sql)).skip.db = s.db := fun _ => rfl
      rw [hdb']
      cases hread : readItems (s.db.result (.select .cam [("cmsid", cstr groupid)])) with
      | none => simp [returns_stuck, hread]
      | some out =>
          simp [returns_pure, hread, lucky, Session.good, Session.skip, Session.executed, and_assoc]

end Db

end VideoAdapter.Adapter

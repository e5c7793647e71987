import VideoAdapter.Adapter.Queries

namespace VideoAdapter.Adapter

open Lib

-- A stored row by the names of its columns.
abbrev Record := String → Option String

structure Database where
  rows : Table → List Record
  nextId : Nat

-- The columns at the positions that the code reads in a result set.
def column : Table → Nat → String
  | .cam, 0 => "id"
  | .cam, 1 => "pid"
  | .cam, 3 => "name"
  | .cam, 4 => "allday"
  | .cam, 5 => "starttime1"
  | .cam, 6 => "endtime1"
  | .cam, 7 => "starttime2"
  | .cam, 8 => "endtime2"
  | .cam, 9 => "datecreate"
  | .cam, 11 => "addr"
  | .ada, 0 => "cmsid"
  | .ada, 1 => "password"
  | .ada, 2 => "name"
  | .ada, 3 => "datecreate"
  | .ada, 5 => "user"
  | .ada, 6 => "customer_id"
  | .users, 42 => "adapternum"
  | _, _ => ""

def Record.row (record : Record) (table : Table) : Row := fun i => record (column table i)

def SqlValue.stored : SqlValue → Option String
  | .text s => some s
  | .int n => some (toString n)
  | .null => none

@[simp] theorem SqlValue.stored_text (s : String) : (SqlValue.text s).stored = some s := rfl

@[simp] theorem SqlValue.stored_null : SqlValue.null.stored = none := rfl

@[simp] theorem SqlValue.stored_zero : (SqlValue.int 0).stored = some "0" := by decide

@[simp] theorem SqlValue.stored_one : (SqlValue.int 1).stored = some "1" := by decide

-- A comparison with NULL does not hold.
def SqlValue.equals (value : SqlValue) (stored : Option String) : Bool :=
  match value with
  | .text s => stored = some s
  | .int n => stored.map atoi = some n
  | .null => false

def holds (cond : List (String × SqlValue)) (record : Record) : Bool :=
  cond.all fun c => c.2.equals (record c.1)

def assign (values : List (String × SqlValue)) (record : Record) : Record := fun name =>
  match values.lookup name with
  | some value => value.stored
  | none => record name

@[simp]
theorem assign_nil (record : Record) : assign [] record = record := rfl

@[simp]
theorem assign_cons (name : String) (value : SqlValue) (rest : List (String × SqlValue))
    (record : Record) (other : String) :
    assign ((name, value) :: rest) record other =
      if other = name then value.stored else assign rest record other := by
  unfold assign
  by_cases h : other = name
  · simp [h]
  · have hlookup : List.lookup other ((name, value) :: rest) = List.lookup other rest := by
      rw [List.lookup_cons, beq_false_of_ne h]
    rw [hlookup, if_neg h]

-- A row before its values: no statement names an id, so the table counts it up.
def blank (id : Nat) : Record := fun name => if name = "id" then some (toString id) else none

namespace Database

def set (db : Database) (table : Table) (rows : List Record) : Database :=
  { db with rows := fun t => if t = table then rows else db.rows t }

def apply (db : Database) : Sql → Database
  | .select _ _ => db
  | .insert table values =>
      { db.set table (db.rows table ++ [assign values (blank db.nextId)]) with nextId := db.nextId + 1 }
  | .update table values cond =>
      db.set table ((db.rows table).map fun record =>
        if holds cond record then assign values record else record)
  | .delete table cond => db.set table ((db.rows table).filter fun record => !holds cond record)
  | .empty => db

def result (db : Database) : Sql → List Row
  | .select table cond => ((db.rows table).filter (holds cond)).map (·.row table)
  | _ => []

theorem set_rows (db : Database) (table : Table) (rows : List Record) :
    (db.set table rows).rows table = rows := if_pos rfl

theorem apply_insert_rows (db : Database) (table : Table) (values : List (String × SqlValue)) :
    (db.apply (.insert table values)).rows table =
      db.rows table ++ [assign values (blank db.nextId)] := set_rows db table _

theorem apply_update_rows (db : Database) (table : Table) (values cond : List (String × SqlValue)) :
    (db.apply (.update table values cond)).rows table =
      (db.rows table).map fun record => if holds cond record then assign values record else record :=
  set_rows db table _

theorem apply_delete_rows (db : Database) (table : Table) (cond : List (String × SqlValue)) :
    (db.apply (.delete table cond)).rows table =
      (db.rows table).filter fun record => !holds cond record := set_rows db table _

end Database

-- One connection to the database. `luck` says which of the next interactions go well; all do
-- once it is used up. A statement that fails has no effect.
structure Session where
  db : Database
  luck : List Bool
  result : List Row := []

namespace Session

def draw (s : Session) : Bool × Session :=
  match s.luck with
  | [] => (true, s)
  | ok :: luck => (ok, { s with luck })

def answer : (query : DbQuery) → Session → query.Answer × Session
  | .execute sql, s =>
      if s.draw.1 ∧ sql ≠ .empty then
        (true, { s.draw.2 with db := s.db.apply sql, result := s.db.result sql })
      else (false, s.draw.2)
  | .storeResult, s => (if s.draw.1 then some s.result else none, s.draw.2)

end Session

variable {α : Type}

def DbProg.run (prog : DbProg α) (s : Session) : Option (α × Session) :=
  Prog.run Session.draw Session.answer prog s

namespace Session

theorem draw_db (s : Session) : s.draw.2.db = s.db := by
  unfold draw
  split <;> rfl

end Session

namespace DbProg

theorem run_fetch {k : Bool → DbProg α} {s : Session} {out : α × Session}
    (h : DbProg.run (fetchConnection >>= k) s = some out) :
    ∃ ok s', s'.db = s.db ∧ DbProg.run (k ok) s' = some out :=
  ⟨s.draw.1, s.draw.2, s.draw_db, h⟩

-- A statement fails without effect, or the program goes on after it.
theorem run_execute_or {k : DbProg α} {failure : α} {sql : Sql} {s : Session} {out : α × Session}
    (h : DbProg.run (do if !(← executeSql sql) then return failure else k) s = some out) :
    (out.1 = failure ∧ out.2.db = s.db) ∨
      ∃ s', s'.db = s.db.apply sql ∧ s'.result = s.db.result sql ∧ DbProg.run k s' = some out := by
  have hanswer : DbProg.run (if !(Session.answer (.execute sql) s).1 then .ret failure else k)
      (Session.answer (.execute sql) s).2 = some out := h
  simp only [Session.answer] at hanswer
  split at hanswer
  · exact .inr ⟨_, rfl, rfl, hanswer⟩
  · cases hanswer
    exact .inl ⟨rfl, s.draw_db⟩

theorem run_store {k : Option (List Row) → DbProg α} {s : Session} {out : α × Session}
    (h : DbProg.run (storeResult >>= k) s = some out) :
    ∃ s', s'.db = s.db ∧ (DbProg.run (k none) s' = some out ∨ DbProg.run (k (some s.result)) s' = some out) := by
  have hanswer : DbProg.run (k (if s.draw.1 then some s.result else none)) s.draw.2 = some out := h
  refine ⟨s.draw.2, s.draw_db, ?_⟩
  split at hanswer
  · exact .inr hanswer
  · exact .inl hanswer

-- A query fails, or its rows are fetched, or they are not; the database stays as it is.
theorem run_select {k : Option (List Row) → DbProg α} {failure : α} {table : Table}
    {cond : List (String × SqlValue)} {s : Session} {out : α × Session}
    (h : DbProg.run (do
      if !(← executeSql (.select table cond)) then return failure
      else storeResult >>= k) s = some out) :
    (out.1 = failure ∧ out.2.db = s.db) ∨
      ∃ s', s'.db = s.db ∧ (DbProg.run (k none) s' = some out ∨
        DbProg.run (k (some (s.db.result (.select table cond)))) s' = some out) := by
  rcases run_execute_or h with hfailed | ⟨s₁, hs₁, hres, h⟩
  · exact .inl hfailed
  · obtain ⟨s₂, hs₂, h⟩ := run_store h
    rw [hres] at h
    exact .inr ⟨s₂, hs₂.trans hs₁, h⟩

theorem run_recycle {prog : DbProg α} {s : Session} {out : α × Session}
    (h : DbProg.run (do let ret ← prog; recycleConnection; return ret) s = some out) :
    DbProg.run prog s = some out := by
  unfold DbProg.run at h
  rw [Prog.run_bind] at h
  obtain ⟨out', hprog, hout⟩ := Option.bind_eq_some_iff.mp h
  cases hout
  exact hprog

end DbProg

namespace Db

open DbProg

-- The rows a statement names by adapter and camera.
def keyCond (cmsid pid : String) : List (String × SqlValue) := [("cmsid", cstr cmsid), ("pid", cstr pid)]

theorem ne_zero_of_failed {ret : Int} (h : ret = 1) : ret ≠ 0 := by omega

-- What `add_device` does to the database: nothing, or one more row under a key that had none.
theorem addDevice_run {mktime : Tm → Int} {info : TBDevice} {strtime : String} {s s' : Session}
    {ret : Int} (h : DbProg.run (addDevice mktime info strtime) s = some (ret, s')) :
    (ret ≠ 0 ∧ s'.db = s.db) ∨
      ret = 0 ∧ ∃ iSize w strkid strcustomerid, schedule mktime info = some (iSize, w) ∧ iSize ≠ -1 ∧
        (∀ record ∈ s.db.rows .cam,
          holds [("pid", cstr info.pid), ("cmsid", cstr info.groupid)] record = false) ∧
        s'.db = s.db.apply (.insert .cam (newRow info iSize w strtime strkid strcustomerid)) := by
  unfold addDevice at h
  split at h
  · cases h
  · rename_i iSize w hschedule
    split at h
    · cases h
      exact .inl ⟨by decide, rfl⟩
    · rename_i hvalid
      obtain ⟨ok, s₀, hdb, h⟩ := run_fetch h
      rw [← hdb]
      cases ok with
      | false =>
          cases h
          exact .inl ⟨by decide, rfl⟩
      | true =>
          rcases run_select (run_recycle h) with ⟨hret, hsame⟩ | ⟨s₁, hs₁, h | h⟩
          · exact .inl ⟨ne_zero_of_failed hret, hsame⟩
          · cases h
            exact .inl ⟨by decide, hs₁⟩
          · split at h
            · rename_i hnone
              cases hnone
            · cases h
              exact .inl ⟨by decide, hs₁⟩
            · rename_i hempty
              have hfree : ∀ record ∈ s₀.db.rows .cam,
                  holds [("pid", cstr info.pid), ("cmsid", cstr info.groupid)] record = false := by
                simpa [Database.result] using hempty
              -- the adapter's row, whose user and customer the new row takes over
              rcases run_select h with ⟨hret, hsame⟩ | ⟨s₂, hs₂, h | h⟩
              · exact .inl ⟨ne_zero_of_failed hret, hsame.trans hs₁⟩
              · cases h
                exact .inl ⟨by decide, hs₂.trans hs₁⟩
              · split at h
                · cases h
                  exact .inl ⟨by decide, hs₂.trans hs₁⟩
                · cases h
                  exact .inl ⟨by decide, hs₂.trans hs₁⟩
                · split at h
                  · rename_i strkid strcustomerid _ _
                    rcases run_execute_or h with ⟨hret, hsame⟩ | ⟨s₃, hs₃, -, h⟩
                    · exact .inl ⟨ne_zero_of_failed hret, hsame.trans (hs₂.trans hs₁)⟩
                    · cases h
                      refine .inr ⟨rfl, iSize, w, strkid, strcustomerid, hschedule, hvalid, hfree, ?_⟩
                      rw [hs₃, hs₂, hs₁]
                  · cases h
                    exact .inl ⟨by decide, hs₂.trans hs₁⟩

-- What `del_device` does: nothing, or the rows of the key are gone.
theorem delDevice_run {cmsid pid : String} {s s' : Session} {ret : Int}
    (h : DbProg.run (delDevice cmsid pid) s = some (ret, s')) :
    (ret ≠ 0 ∧ s'.db = s.db) ∨ ret = 0 ∧ s'.db = s.db.apply (.delete .cam (keyCond cmsid pid)) := by
  unfold delDevice at h
  obtain ⟨ok, s₀, hdb, h⟩ := run_fetch h
  rw [← hdb]
  cases ok with
  | false =>
      cases h
      exact .inl ⟨by decide, rfl⟩
  | true =>
      rcases run_select (run_recycle h) with ⟨hret, hsame⟩ | ⟨s₁, hs₁, h | h⟩
      · exact .inl ⟨ne_zero_of_failed hret, hsame⟩
      · cases h
        exact .inl ⟨by decide, hs₁⟩
      · split at h
        · cases h
          exact .inl ⟨by decide, hs₁⟩
        · cases h
          exact .inl ⟨by decide, hs₁⟩
        · split at h
          · rcases run_execute_or h with ⟨hret, hsame⟩ | ⟨s₂, hs₂, -, h⟩
            · exact .inl ⟨ne_zero_of_failed hret, hsame.trans hs₁⟩
            · cases h
              exact .inr ⟨rfl, by rw [hs₂, hs₁]; rfl⟩
          · cases h
            exact .inl ⟨by decide, hs₁⟩

-- What `mod_device` does: nothing, or the rows of the key are changed, also when there is none.
theorem modDevice_run {mktime : Tm → Int} {info : TBDevice} {curtime : String} {s s' : Session}
    {ret : Int} (h : DbProg.run (modDevice mktime info curtime) s = some (ret, s')) :
    (ret ≠ 0 ∧ s'.db = s.db) ∨
      ret = 0 ∧ ∃ iSize w, schedule mktime info = some (iSize, w) ∧ iSize ≠ -1 ∧
        s'.db = s.db.apply (.update .cam (changedRow info iSize w curtime)
          [("pid", cstr info.pid), ("cmsid", cstr info.groupid)]) := by
  unfold modDevice at h
  split at h
  · cases h
  · rename_i iSize w hschedule
    split at h
    · cases h
      exact .inl ⟨by decide, rfl⟩
    · rename_i hvalid
      obtain ⟨ok, s₀, hdb, h⟩ := run_fetch h
      rw [← hdb]
      cases ok with
      | false =>
          cases h
          exact .inl ⟨by decide, rfl⟩
      | true =>
          rcases run_execute_or (run_recycle h) with ⟨hret, hsame⟩ | ⟨s₁, hs₁, -, h⟩
          · exact .inl ⟨ne_zero_of_failed hret, hsame⟩
          · cases h
            exact .inr ⟨rfl, iSize, w, hschedule, hvalid, hs₁⟩

-- Where nothing goes wrong, `get_group_info_ex` reads the rows of the adapter.
theorem getGroupInfoEx_run (db : Database) (cmsid : String) :
    ∃ s', DbProg.run (getGroupInfoEx cmsid) { db, luck := [] } =
      some (some ((DBHelper.readCameras (db.result (.select .cam [("cmsid", cstr cmsid)]))).take
        (MAX_DEVICE_NUM_PER_ADAPTER + 1)), s') := ⟨_, rfl⟩

end Db

section Reads

-- How the query of a function that makes a single one can end on this database.
inductive Outcome (db : Database) (sql : Sql) : QueryResult → Prop
  | noConnection : Outcome db sql .noConnection
  | failed : Outcome db sql .failed
  | noResult : Outcome db sql .noResult
  | rows : Outcome db sql (.rows (db.result sql))

-- The program returns what `ret` makes of the outcome of its query, and leaves the database alone.
def Reads (prog : DbProg α) (sql : Sql) (ret : QueryResult → α) : Prop :=
  ∀ s, ∃ query s', Outcome s.db sql query ∧ s'.db = s.db ∧ DbProg.run prog s = some (ret query, s')

variable {β : Type} {table : Table} {cond : List (String × SqlValue)}

def QueryResult.fetched : Option (List Row) → QueryResult
  | none => .noResult
  | some list => .rows list

-- A block that asks its query first and then only looks at the rows.
theorem reads_of_body {body : DbProg β} {failure : α} (finish : β → α) {ret : QueryResult → α}
    {failed : β} {k : Option (List Row) → DbProg β}
    (hbody : body = executeSql (.select table cond) >>= fun ok =>
      if !ok then .ret failed else storeResult >>= k)
    (hk : ∀ rows, ∃ out, k rows = .ret out ∧ ret (.fetched rows) = finish out)
    (hconnection : ret .noConnection = failure) (hfailed : ret .failed = finish failed) :
    Reads (fetchConnection >>= fun ok => if !ok then .ret failure
      else body >>= fun out => recycleConnection >>= fun _ => .ret (finish out)) (.select table cond) ret := by
  intro s
  have hfetch : ∀ next : Bool → DbProg α,
      DbProg.run (fetchConnection >>= next) s = DbProg.run (next s.draw.1) s.draw.2 := fun _ => rfl
  rw [hfetch]
  cases hconnect : s.draw.1 with
  | false => exact ⟨.noConnection, s.draw.2, .noConnection, s.draw_db, by rw [hconnection]; rfl⟩
  | true =>
      have hrun : ∀ out s', DbProg.run body s.draw.2 = some (out, s') →
          DbProg.run (body >>= fun out => recycleConnection >>= fun _ => .ret (finish out)) s.draw.2 =
            some (finish out, s') := by
        intro out s' hout
        unfold DbProg.run at hout ⊢
        rw [Prog.run_bind, hout]
        rfl
      have hstart : DbProg.run body s.draw.2 =
          DbProg.run (if !(Session.answer (.execute (.select table cond)) s.draw.2).1 then .ret failed
            else storeResult >>= k) (Session.answer (.execute (.select table cond)) s.draw.2).2 := by
        rw [hbody]
        rfl
      simp only [Session.answer] at hstart
      split at hstart
      · -- the statement is executed, and its result set is fetched or not
        generalize hs₁ : ({ s.draw.2.draw.2 with
            db := s.draw.2.db.apply (.select table cond),
            result := s.draw.2.db.result (.select table cond) } : Session) = s₁ at hstart
        have hdb : s₁.draw.2.db = s.db := by
          rw [Session.draw_db, ← hs₁]
          exact s.draw_db
        have hresult : s₁.result = s.db.result (.select table cond) := by
          rw [← hs₁, ← s.draw_db]
        have hstore : DbProg.run body s.draw.2 =
            DbProg.run (k (if s₁.draw.1 then some s₁.result else none)) s₁.draw.2 := hstart
        obtain ⟨out, hout, hret⟩ := hk (if s₁.draw.1 then some s₁.result else none)
        rw [hout] at hstore
        refine ⟨_, s₁.draw.2, ?_, hdb, by rw [hret]; exact hrun out _ hstore⟩
        split
        · rw [hresult]
          exact .rows
        · exact .noResult
      · refine ⟨.failed, _, .failed, ?_, by rw [hfailed]; exact hrun failed _ hstart⟩
        rw [Session.draw_db, Session.draw_db]

namespace Db

-- The functions with a single query, as programs, do what they do by its outcome.
theorem checkLogin_reads (groupid password : String) :
    Reads (checkLogin groupid password) (.select .ada [("cmsid", cstr groupid)])
      fun query => DBHelper.checkLogin query password := by
  refine reads_of_body id rfl (fun rows => ?_) rfl rfl
  rcases rows with - | - | ⟨sqlrow, rest⟩
  · exact ⟨_, rfl, rfl⟩
  · exact ⟨_, rfl, rfl⟩
  · simp only [QueryResult.fetched, DBHelper.checkLogin, id]
    cases sqlrow 1 with
    | none => exact ⟨_, rfl, rfl⟩
    | some psw =>
        dsimp only
        split
        · exact ⟨_, rfl, rfl⟩
        · split
          · exact ⟨_, rfl, rfl⟩
          · cases sqlrow 5 <;> exact ⟨_, rfl, rfl⟩

theorem checkStartPush_reads (mktime : Tm → Int) (groupid pid strtime : String) :
    Reads (checkStartPush mktime groupid pid strtime)
      (.select .cam [("cmsid", cstr groupid), ("pid", cstr pid)])
      fun query => DBHelper.checkStartPush mktime query strtime := by
  refine reads_of_body id rfl (fun rows => ?_) rfl rfl
  rcases rows with - | - | ⟨sqlrow, rest⟩ <;> exact ⟨_, rfl, rfl⟩

theorem getGroupInfoEx_reads (groupid : String) :
    Reads (getGroupInfoEx groupid) (.select .cam [("cmsid", cstr groupid)]) DBHelper.getGroupInfoEx := by
  refine reads_of_body some rfl (fun rows => ?_) rfl rfl
  cases rows <;> exact ⟨_, rfl, rfl⟩

end Db

end Reads

end VideoAdapter.Adapter

import VideoAdapter.Adapter.Database
import VideoAdapter.Lib.Literal

namespace VideoAdapter.Adapter

open Lib

def TABLE_USERS : String := "xxxxxxxxxx"
def TABLE_ADA : String := "xxxxxxxxxxxxxxxx"
def TABLE_ADA_HIS : String := "xxxxxxxxxxxxx"
def TABLE_CAM : String := "xxxxxxxxxxxxxxxxxx"
def TABLE_CAM_HIS : String := "xxxxxxxxxx"

-- A text that is too long for one line.
def lines (parts : List String) : List Char := parts.flatMap String.toList

-- The calls of `sprintf` that fill `szSql`.
namespace SzSql

def checkLogin (groupid : String) : List Piece :=
  sprintf "select * from %s where cmsid='%s'".toList [.defined TABLE_ADA, .str groupid]

def checkStartPush (groupid pid : String) : List Piece :=
  sprintf "select * from %s where cmsid='%s' and pid='%s'".toList
    [.defined TABLE_CAM, .str groupid, .str pid]

def addDeviceExist (info : TBDevice) : List Piece :=
  sprintf "select * from %s where pid='%s' and cmsid='%s'".toList
    [.defined TABLE_CAM, .str info.pid, .str info.groupid]

def addDeviceGroup (info : TBDevice) : List Piece :=
  sprintf "select * from %s where cmsid='%s'".toList [.defined TABLE_ADA, .str info.groupid]

def addDevice (info : TBDevice) (iSize : Int) (w : Windows) (strtime strkid strcustomerid : String) :
    List Piece :=
  if info.allday = 0 then
    if iSize = 2 then
      sprintf (lines ["INSERT INTO %s(pid,cmsid,name,allday,starttime1,endtime1,",
          "starttime2,endtime2,datecreate,customer_id,kindergarten_id)",
          "VALUES('%s','%s','%s',0,'%s','%s','%s','%s','%s',%d,%d)"])
        [.defined TABLE_CAM, .str info.pid, .str info.groupid, .str info.name, .str w.s0, .str w.e0,
          .str w.s1, .str w.e1, .str strtime, .int (atoi strcustomerid), .int (atoi strkid)]
    else
      sprintf (lines ["INSERT INTO %s(pid,cmsid,name,allday,starttime1,endtime1,",
          "datecreate,customer_id,kindergarten_id)", "VALUES('%s','%s','%s',0,'%s','%s','%s',%d,%d)"])
        [.defined TABLE_CAM, .str info.pid, .str info.groupid, .str info.name, .str w.s0, .str w.e0,
          .str strtime, .int (atoi strcustomerid), .int (atoi strkid)]
  else
    sprintf (lines ["INSERT INTO %s(pid,cmsid,name,allday,datecreate,customer_id,kindergarten_id)",
        "VALUES('%s','%s','%s',1,'%s',%d,%d)"])
      [.defined TABLE_CAM, .str info.pid, .str info.groupid, .str info.name, .str strtime,
        .int (atoi strcustomerid), .int (atoi strkid)]

def delDeviceSelect (groupid pid : String) : List Piece :=
  sprintf "select * from %s where cmsid='%s' and pid='%s'".toList
    [.defined TABLE_CAM, .str groupid, .str pid]

def delDevice (groupid pid : String) : List Piece :=
  sprintf "DELETE FROM %s WHERE cmsid='%s' and pid='%s'".toList
    [.defined TABLE_CAM, .str groupid, .str pid]

-- The statement that is never executed.
def delDeviceHistory (groupid pid strname strcreate strtime : String) : List Piece :=
  sprintf (lines ["INSERT INTO %s(pid,cmsid,name,datecreate,datedelete)",
      "VALUES('%s','%s','%s','%s','%s')"])
    [.defined TABLE_CAM_HIS, .str pid, .str groupid, .str strname, .str strcreate, .str strtime]

def modDevice (info : TBDevice) (iSize : Int) (w : Windows) (curtime : String) : List Piece :=
  if info.allday = 0 then
    if iSize = 2 then
      sprintf (lines ["UPDATE %s SET allday=0,name='%s',starttime1='%s',endtime1='%s',",
          "starttime2='%s',endtime2='%s',datemodify='%s'", " WHERE pid='%s' and cmsid='%s'"])
        [.defined TABLE_CAM, .str info.name, .str w.s0, .str w.e0, .str w.s1, .str w.e1, .str curtime,
          .str info.pid, .str info.groupid]
    else
      sprintf (lines ["UPDATE %s SET allday=0,name='%s',starttime1='%s',endtime1='%s',",
          "starttime2=null,endtime2=null,datemodify='%s'", " WHERE pid='%s' and cmsid='%s'"])
        [.defined TABLE_CAM, .str info.name, .str w.s0, .str w.e0, .str curtime, .str info.pid,
          .str info.groupid]
  else
    sprintf (lines ["UPDATE %s SET allday=1,name='%s',starttime1=null,endtime1=null,",
        "starttime2=null,endtime2=null,datemodify='%s'", " WHERE pid='%s' and cmsid='%s'"])
      [.defined TABLE_CAM, .str info.name, .str curtime, .str info.pid, .str info.groupid]

end SzSql

-- One statement of the five functions, with the values it is built from.
inductive Statement where
  | checkLogin (groupid : String)
  | checkStartPush (groupid pid : String)
  | addDeviceExist (info : TBDevice)
  | addDeviceGroup (info : TBDevice)
  | addDevice (info : TBDevice) (iSize : Int) (w : Windows) (strtime strkid strcustomerid : String)
  | delDeviceSelect (groupid pid : String)
  | delDevice (groupid pid : String)
  | delDeviceHistory (groupid pid strname strcreate strtime : String)
  | modDevice (info : TBDevice) (iSize : Int) (w : Windows) (curtime : String)

def Statement.szSql : Statement → List Piece
  | .checkLogin groupid => SzSql.checkLogin groupid
  | .checkStartPush groupid pid => SzSql.checkStartPush groupid pid
  | .addDeviceExist info => SzSql.addDeviceExist info
  | .addDeviceGroup info => SzSql.addDeviceGroup info
  | .addDevice info iSize w strtime strkid strcustomerid =>
      SzSql.addDevice info iSize w strtime strkid strcustomerid
  | .delDeviceSelect groupid pid => SzSql.delDeviceSelect groupid pid
  | .delDevice groupid pid => SzSql.delDevice groupid pid
  | .delDeviceHistory groupid pid strname strcreate strtime =>
      SzSql.delDeviceHistory groupid pid strname strcreate strtime
  | .modDevice info iSize w curtime => SzSql.modDevice info iSize w curtime

-- `char szSql[1024]`, with its NUL
def sizeofSzSql : Nat := 1024

-- The statement fits its buffer, and a reader takes it for its format with the arguments as the
-- values of its literals.
def Statement.Carries (statement : Statement) : Prop :=
  (render statement.szSql).length < sizeofSzSql ∧
    tokenise (render statement.szSql) = some (meant statement.szSql)

theorem plainMacros_cam {args : List FormatArg} (h : ∀ s, .defined s ∉ args) :
    PlainMacros (.defined TABLE_CAM :: args) := by
  intro s hs
  rcases List.mem_cons.mp hs with heq | hs
  · cases heq
    decide
  · exact absurd hs (h s)

theorem separated_szSql (statement : Statement) : Separated statement.szSql := by
  cases statement with
  | checkLogin => exact separated_sprintf (by decide +kernel) (by simp [PlainMacros, TABLE_ADA, quote])
  | checkStartPush => exact separated_sprintf (by decide +kernel) (plainMacros_cam (by simp))
  | addDeviceExist => exact separated_sprintf (by decide +kernel) (plainMacros_cam (by simp))
  | addDeviceGroup => exact separated_sprintf (by decide +kernel) (by simp [PlainMacros, TABLE_ADA, quote])
  | addDevice info iSize w strtime strkid strcustomerid =>
      simp only [Statement.szSql, SzSql.addDevice]
      split_ifs
      · exact separated_sprintf (by decide +kernel) (plainMacros_cam (by simp))
      · exact separated_sprintf (by decide +kernel) (plainMacros_cam (by simp))
      · exact separated_sprintf (by decide +kernel) (plainMacros_cam (by simp))
  | delDeviceSelect => exact separated_sprintf (by decide +kernel) (plainMacros_cam (by simp))
  | delDevice => exact separated_sprintf (by decide +kernel) (plainMacros_cam (by simp))
  | delDeviceHistory => exact separated_sprintf (by decide +kernel) (by simp [PlainMacros, TABLE_CAM_HIS, quote])
  | modDevice info iSize w curtime =>
      simp only [Statement.szSql, SzSql.modDevice]
      split_ifs
      · exact separated_sprintf (by decide +kernel) (plainMacros_cam (by simp))
      · exact separated_sprintf (by decide +kernel) (plainMacros_cam (by simp))
      · exact separated_sprintf (by decide +kernel) (plainMacros_cam (by simp))

-- A statement carries its arguments as data exactly when it fits its buffer and every one of them
-- has no NUL, no quote and no backslash but before a wildcard.
theorem statement_carries_iff (statement : Statement) :
    statement.Carries ↔ (render statement.szSql).length < sizeofSzSql ∧
      ∀ arg ∈ arguments statement.szSql, Inert arg :=
  and_congr_right fun _ => tokenise_render_iff (separated_szSql statement)

def Table.name : Table → String
  | .users => TABLE_USERS
  | .ada => TABLE_ADA
  | .adaHis => TABLE_ADA_HIS
  | .cam => TABLE_CAM
  | .camHis => TABLE_CAM_HIS

def SqlValue.piece : SqlValue → Piece
  | .text s => .quoted s
  | .int n => .text (toString n).toList
  | .null => .text "null".toList

def equation (c : String × SqlValue) : List Piece := [.text (c.1.toList ++ ['=']), c.2.piece]

-- The text of a statement.
def Sql.pieces : Sql → List Piece
  | .select table cond =>
      .text ("select * from ".toList ++ table.name.toList ++ " where ".toList) ::
        [.text " and ".toList].intercalate (cond.map equation)
  | .insert table values =>
      .text ("INSERT INTO ".toList ++ table.name.toList ++ ['('] ++
          [','].intercalate (values.map (·.1.toList)) ++ ")VALUES(".toList) ::
        [.text [',']].intercalate (values.map ([·.2.piece])) ++ [.text [')']]
  | .update table values cond =>
      .text ("UPDATE ".toList ++ table.name.toList ++ " SET ".toList) ::
        [.text [',']].intercalate (values.map equation) ++ .text " WHERE ".toList ::
        [.text " and ".toList].intercalate (cond.map equation)
  | .delete table cond =>
      .text ("DELETE FROM ".toList ++ table.name.toList ++ " WHERE ".toList) ::
        [.text " and ".toList].intercalate (cond.map equation)
  | .empty => []

theorem cut_ofList_cut (s : String) : cut (String.ofList (cut s)) = cut s := by
  simp [cut, List.takeWhile_takeWhile]

-- An argument leaves the same text, whether it is cut at its NUL before or now.
theorem chars_cstr (s : String) : (cstr s).piece.chars = quote :: (cut s ++ [quote]) := by
  have hcut : cut (String.ofList (s.toList.takeWhile (· ≠ Char.ofNat 0))) = cut s := cut_ofList_cut s
  show quote :: (cut _ ++ [quote]) = _
  rw [hcut]

theorem chars_text (s : List Char) : (Piece.text s).chars = s := rfl

theorem chars_quoted (arg : String) : (Piece.quoted arg).chars = quote :: (cut arg ++ [quote]) := rfl

theorem piece_int (n : Int) : (SqlValue.int n).piece = .text (toString n).toList := rfl

theorem piece_null : SqlValue.null.piece = .text "null".toList := rfl

theorem repr_zero : (Int.repr 0).toList = ['0'] := rfl

theorem repr_one : (Int.repr 1).toList = ['1'] := rfl

section Texts

attribute [local simp] render sprintf lines FormatArg.value FormatArg.bare Sql.pieces Table.name equation
  List.intercalate List.intersperse chars_cstr chars_text chars_quoted piece_int piece_null repr_zero repr_one
  quote
  TABLE_ADA TABLE_CAM TABLE_CAM_HIS

-- The statements that the programs execute are sent as the texts that the code builds.
theorem render_checkLogin (groupid : String) :
    render (Sql.select .ada [("cmsid", cstr groupid)]).pieces = render (SzSql.checkLogin groupid) := by
  simp [SzSql.checkLogin]

theorem render_checkStartPush (groupid pid : String) :
    render (Sql.select .cam [("cmsid", cstr groupid), ("pid", cstr pid)]).pieces =
      render (SzSql.checkStartPush groupid pid) := by
  simp [SzSql.checkStartPush]

theorem render_addDeviceExist (info : TBDevice) :
    render (Sql.select .cam [("pid", cstr info.pid), ("cmsid", cstr info.groupid)]).pieces =
      render (SzSql.addDeviceExist info) := by
  simp [SzSql.addDeviceExist]

theorem render_addDevice (info : TBDevice) (iSize : Int) (w : Windows)
    (strtime strkid strcustomerid : String) :
    render (Sql.insert .cam (Db.newRow info iSize w strtime strkid strcustomerid)).pieces =
      render (SzSql.addDevice info iSize w strtime strkid strcustomerid) := by
  unfold Db.newRow SzSql.addDevice
  split_ifs
  · simp
  · simp
  · simp

theorem render_delDevice (groupid pid : String) :
    render (Sql.delete .cam [("cmsid", cstr groupid), ("pid", cstr pid)]).pieces =
      render (SzSql.delDevice groupid pid) := by
  simp [SzSql.delDevice]

theorem render_modDevice (info : TBDevice) (iSize : Int) (w : Windows) (curtime : String) :
    render (Sql.update .cam (Db.changedRow info iSize w curtime)
      [("pid", cstr info.pid), ("cmsid", cstr info.groupid)]).pieces =
      render (SzSql.modDevice info iSize w curtime) := by
  unfold Db.changedRow SzSql.modDevice
  split_ifs
  · simp
  · simp
  · simp

end Texts

-- A statement whose text is built by one of the five functions.
def Built : DbQuery → Prop
  | .execute sql => ∃ statement : Statement, render sql.pieces = render statement.szSql
  | .storeResult => True

variable {α : Type}

theorem every_execute {sql : Sql} (statement : Statement)
    (h : render sql.pieces = render statement.szSql) {k : Bool → DbProg α}
    (hk : ∀ ok, (k ok).Every Built) : Prog.Every Built (executeSql sql >>= k) :=
  ⟨⟨statement, h⟩, hk⟩

theorem every_store {k : Option (List Row) → DbProg α} (hk : ∀ rows, (k rows).Every Built) :
    Prog.Every Built (storeResult >>= k) := ⟨trivial, hk⟩

-- A body between the connection it needs and its return.
theorem every_fetch {body : DbProg α} {failure : α} (hbody : body.Every Built) :
    Prog.Every Built (do
      if !(← fetchConnection) then return failure
      let ret ← body
      recycleConnection
      return ret) := by
  intro ok
  cases ok with
  | false => trivial
  | true => exact hbody.bind fun _ => trivial

namespace Db

theorem checkLogin_built (groupid password : String) : (checkLogin groupid password).Every Built := by
  refine every_fetch (every_execute (.checkLogin groupid) (render_checkLogin groupid) fun ok => ?_)
  cases ok with
  | false => trivial
  | true =>
      refine every_store fun rows => ?_
      rcases rows with - | - | ⟨sqlrow, rest⟩
      · trivial
      · trivial
      · dsimp only
        split
        · trivial
        · split_ifs
          · trivial
          · trivial
          · split <;> trivial

theorem checkStartPush_built (mktime : Tm → Int) (groupid pid strtime : String) :
    (checkStartPush mktime groupid pid strtime).Every Built := by
  refine every_fetch (every_execute (.checkStartPush groupid pid)
    (render_checkStartPush groupid pid) fun ok => ?_)
  cases ok with
  | false => trivial
  | true =>
      refine every_store fun rows => ?_
      rcases rows with - | - | ⟨sqlrow, rest⟩ <;> trivial

theorem addDevice_built (mktime : Tm → Int) (info : TBDevice) (strtime : String) :
    (addDevice mktime info strtime).Every Built := by
  unfold addDevice
  split
  · trivial
  · rename_i iSize w _
    split_ifs
    · trivial
    · refine every_fetch (every_execute (.addDeviceExist info) (render_addDeviceExist info) fun ok => ?_)
      cases ok with
      | false => trivial
      | true =>
          refine every_store fun rows => ?_
          rcases rows with - | - | ⟨sqlrow, rest⟩
          · trivial
          · refine every_execute (.addDeviceGroup info) (render_checkLogin info.groupid) fun ok => ?_
            cases ok with
            | false => trivial
            | true =>
                refine every_store fun rows => ?_
                rcases rows with - | - | ⟨sqlrow, rest⟩
                · trivial
                · trivial
                · dsimp only
                  split
                  · rename_i strkid strcustomerid _ _
                    refine every_execute (.addDevice info iSize w strtime strkid strcustomerid)
                      (render_addDevice info iSize w strtime strkid strcustomerid) fun ok => ?_
                    cases ok <;> trivial
                  · trivial
          · trivial

theorem delDevice_built (groupid pid : String) : (delDevice groupid pid).Every Built := by
  refine every_fetch (every_execute (.delDeviceSelect groupid pid)
    (render_checkStartPush groupid pid) fun ok => ?_)
  cases ok with
  | false => trivial
  | true =>
      refine every_store fun rows => ?_
      rcases rows with - | - | ⟨sqlrow, rest⟩
      · trivial
      · trivial
      · dsimp only
        split
        · refine every_execute (.delDevice groupid pid) (render_delDevice groupid pid) fun ok => ?_
          cases ok <;> trivial
        · trivial

theorem modDevice_built (mktime : Tm → Int) (info : TBDevice) (curtime : String) :
    (modDevice mktime info curtime).Every Built := by
  unfold modDevice
  split
  · trivial
  · rename_i iSize w _
    split_ifs
    · trivial
    · refine every_fetch (every_execute (.modDevice info iSize w curtime)
        (render_modDevice info iSize w curtime) fun ok => ?_)
      cases ok <;> trivial

end Db

-- A name that a login can carry ends the literal and adds a condition of its own.
theorem login_not_carried : ¬ (Statement.checkLogin "' or '1'='1").Carries := by
  intro h
  have hmem : "' or '1'='1" ∈ arguments (Statement.checkLogin "' or '1'='1").szSql := by
    decide +kernel
  have hinert := (tokenise_render_iff (separated_szSql _)).mp h.2 _ hmem
  exact absurd hinert.2 (by decide)

end VideoAdapter.Adapter

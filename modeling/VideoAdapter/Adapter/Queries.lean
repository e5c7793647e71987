import VideoAdapter.Lib.Pool
import VideoAdapter.Adapter.Schedule

namespace VideoAdapter.Adapter

open Lib

inductive Table where
  | users
  | ada
  | adaHis
  | cam
  | camHis
deriving DecidableEq, Repr

inductive SqlValue where
  | text (s : String)
  | int (n : Int)
  | null
deriving DecidableEq, Repr

-- A statement as the server understands its text, which holds for arguments without a quote
-- or a backslash. `empty` is the empty text.
inductive Sql where
  | select (table : Table) (cond : List (String × SqlValue))
  | insert (table : Table) (values : List (String × SqlValue))
  | update (table : Table) (values : List (String × SqlValue)) (cond : List (String × SqlValue))
  | delete (table : Table) (cond : List (String × SqlValue))
  | empty
deriving DecidableEq, Repr

-- `'%s'` of `s.c_str()`: the text ends at the first NUL
def cstr (s : String) : SqlValue := .text (String.ofList (s.toList.takeWhile (· ≠ Char.ofNat 0)))

inductive DbQuery where
  | execute (sql : Sql)
  | storeResult

-- Whether `executeSql` returned 0, and the rows of `mysql_store_result` if it has a result.
abbrev DbQuery.Answer : DbQuery → Type
  | .execute _ => Bool
  | .storeResult => Option (List Row)

abbrev DbProg := Prog DbQuery.Answer

def fetchConnection : DbProg Bool := .fetch .ret

def recycleConnection : DbProg Unit := .recycle (.ret ())

def executeSql (sql : Sql) : DbProg Bool := .ask (.execute sql) .ret

def storeResult : DbProg (Option (List Row)) := .ask .storeResult .ret

structure TBDevice where
  pid : String
  groupid : String
  name : String
  allday : Int
  time_sec0 : String
  time_sec1 : String
  broadcast_address : String := ""
deriving DecidableEq, Repr

-- An entry of the list that `get_group_info` fills.
structure CameraItem where
  devid : String
  name : String
  id : Int
  s0 : String
  e0 : String
  s1 : String
  e1 : String
  addr : String
deriving DecidableEq, Repr

-- The functions of `DBHelper` as they talk to the pool and to the database. A body stands for
-- the block `do { } while(0)`, which every `break` of it leaves for the same two last steps.
namespace Db

def checkLogin.body (groupid password : String) : DbProg (Int × String) := do
  if !(← executeSql (.select .ada [("cmsid", cstr groupid)])) then return (1, "")
  match ← storeResult with
  | none => return (1, "")
  | some [] => return (2, "")
  | some (sqlrow :: _) =>
      match sqlrow 1 with
      | none => return (100, "")
      | some psw =>
          if psw.length > 19 then return (100, "")
          if psw ≠ password then return (3, "")
          match sqlrow 5 with
          | none => return (100, "")
          | some kid => return (0, kid)

-- 0 success, 1 database error, 2 groupid not exist, 3 password error
def checkLogin (groupid password : String) : DbProg (Int × String) := do
  if !(← fetchConnection) then return (1, "")
  let ret ← checkLogin.body groupid password
  recycleConnection
  return ret

def checkStartPush.body (mktime : Tm → Int) (groupid pid strtime : String) : DbProg Int := do
  if !(← executeSql (.select .cam [("cmsid", cstr groupid), ("pid", cstr pid)])) then return 1
  match ← storeResult with
  | none => return 100
  | some [] => return 2
  | some (sqlrow :: _) => return checkRow mktime strtime sqlrow

-- 0 check ok, 1 database error, 2 device not exist, 3 not valid at this time
def checkStartPush (mktime : Tm → Int) (groupid pid strtime : String) : DbProg Int := do
  if !(← fetchConnection) then return 1
  let ret ← checkStartPush.body mktime groupid pid strtime
  recycleConnection
  return ret

def getUserGroup.body (kid : String) : DbProg (Int × List (String × String)) := do
  if !(← executeSql (.select .users [("id", .int (atoi kid))])) then return (1, [])
  match ← storeResult with
  | none => return (1, [])
  | some [] => return (2, [])
  | some _ =>
      if !(← executeSql (.select .ada [("user", .int (atoi kid))])) then return (1, [])
      match ← storeResult with
      | none => return (1, [])
      | some rows => return (0, rows.map fun sqlrow => ((sqlrow 0).getD "", (sqlrow 2).getD ""))

-- 0 success, 1 database error, 2 user not exist; with the `cmsid` and `name` of each adapter
def getUserGroup (kid : String) : DbProg (Int × List (String × String)) := do
  if !(← fetchConnection) then return (1, [])
  let ret ← getUserGroup.body kid
  recycleConnection
  return ret

def getGroupInfoEx.body (groupid : String) : DbProg (List TBDeviceEx) := do
  if !(← executeSql (.select .cam [("cmsid", cstr groupid)])) then return []
  match ← storeResult with
  | none => return []
  | some rows => return (DBHelper.readCameras rows).take (MAX_DEVICE_NUM_PER_ADAPTER + 1)

-- No list for the result -1; else the number of rows read overwrites any error.
def getGroupInfoEx (groupid : String) : DbProg (Option (List TBDeviceEx)) := do
  if !(← fetchConnection) then return none
  let list ← getGroupInfoEx.body groupid
  recycleConnection
  return some list

def readItem (sqlrow : Row) (id : Int) (allday : String) : CameraItem :=
  let item : CameraItem :=
    { devid := (sqlrow 1).getD "", name := (sqlrow 3).getD "", id, s0 := "00:00:00", e0 := "23:59:59",
      s1 := "", e1 := "", addr := (sqlrow 11).getD "" }
  if atoi allday = 1 then item
  else { item with
    s0 := (sqlrow 5).getD "", e0 := (sqlrow 6).getD "", s1 := (sqlrow 7).getD "", e1 := (sqlrow 8).getD "" }

-- The loop of `get_group_info`. A row without an id ends it with 100; a NULL `allday` goes to
-- `atoi` as it is, which has no result.
def readItems : List Row → Option (Int × List CameraItem)
  | [] => some (0, [])
  | sqlrow :: rest =>
      match sqlrow 0, sqlrow 4 with
      | none, _ => some (100, [])
      | some _, none => none
      | some id, some allday =>
          match readItems rest with
          | none => none
          | some (ret, items) => some (ret, readItem sqlrow (atoi id) allday :: items)

def getGroupInfo.body (kid groupid : String) : DbProg (Int × List CameraItem) := do
  if !(← executeSql (.select .ada [("cmsid", cstr groupid), ("user", .int (atoi kid))])) then
    return (1, [])
  match ← storeResult with
  | none => return (1, [])
  | some [] => return (2, [])
  | some _ =>
      if !(← executeSql (.select .cam [("cmsid", cstr groupid)])) then return (1, [])
      match ← storeResult with
      | none => return (1, [])
      | some rows =>
          match readItems rows with
          | none => .stuck
          | some ret => return ret

-- 0 success, 1 database error, 2 group not exist; with the entries read so far
def getGroupInfo (kid groupid : String) : DbProg (Int × List CameraItem) := do
  if !(← fetchConnection) then return (1, [])
  let ret ← getGroupInfo.body kid groupid
  recycleConnection
  return ret

def addGroup.body (kid password name : String) (draws : Nat → Nat) (strtime : String) :
    DbProg (Int × String) := do
  if !(← executeSql (.select .users [("id", .int (atoi kid))])) then return (1, "")
  match ← storeResult with
  | none => return (1, "")
  | some [] => return (2, "")
  | some (sqlrow :: _) =>
      match sqlrow 42 with
      | none => return (100, "")
      | some strcount =>
          let iCount := atoi strcount
          if iCount + 1 > 5 then return (3, "")
          let strgroupid := generalToken draws 9
          if !(← executeSql (.insert .ada [("cmsid", cstr strgroupid), ("password", cstr password),
              ("name", cstr name), ("datecreate", cstr strtime), ("user", .int (atoi kid))])) then
            return (1, "")
          if !(← executeSql (.update .users [("adapternum", .int (iCount + 1))]
              [("id", .int (atoi kid))])) then
            return (1, "")
          return (0, strgroupid)

-- 0 success, 1 database error, 2 user not exist, 3 reach max num; with the new group
def addGroup (kid password name : String) (draws : Nat → Nat) (strtime : String) :
    DbProg (Int × String) := do
  if !(← fetchConnection) then return (1, "")
  let ret ← addGroup.body kid password name draws strtime
  recycleConnection
  return ret

-- The count of the user's adapters, which `del_group` lowers last.
def delGroup.count (kid : String) : DbProg Int := do
  if !(← executeSql (.select .users [("id", .int (atoi kid))])) then return 1
  match ← storeResult with
  | none => return 1
  | some [] => return 100
  | some (sqlrow :: _) =>
      match sqlrow 42 with
      | none => return 100
      | some strcount =>
          let iAdapternum := atoi strcount
          if iAdapternum ≤ 0 then return 100
          if !(← executeSql (.update .users [("adapternum", .int (iAdapternum - 1))]
              [("id", .int (atoi kid))])) then
            return 2
          return 0

def delGroup.body (kid groupid strtime : String) : DbProg Int := do
  if !(← executeSql (.select .ada [("cmsid", cstr groupid), ("user", .int (atoi kid))])) then return 1
  match ← storeResult with
  | none => return 1
  | some [] => return 2
  | some (sqlrow :: _) =>
      match sqlrow 2, sqlrow 3 with
      | some name, some datecreate =>
          if !(← executeSql (.delete .ada [("cmsid", cstr groupid)])) then return 1
          if !(← executeSql (.insert .adaHis [("cmsid", cstr groupid), ("name", cstr name),
              ("datecreate", cstr datecreate), ("datedelete", cstr strtime),
              ("user", .int (atoi kid))])) then
            return 1
          if !(← executeSql (.delete .cam [("cmsid", cstr groupid)])) then return 1
          delGroup.count kid
      | _, _ => return 100

-- 0 success, 1 database error, 2 group not exist or the count not lowered
def delGroup (kid groupid strtime : String) : DbProg Int := do
  if !(← fetchConnection) then return 1
  let ret ← delGroup.body kid groupid strtime
  recycleConnection
  return ret

-- A type other than 0 and 1 leaves the statement empty.
def modGroup.body (groupid : String) (type : Int) (value curtime : String) : DbProg Int := do
  let sql : Sql :=
    if type = 0 then .update .ada [("password", cstr value), ("datemodify", cstr curtime)]
      [("cmsid", cstr groupid)]
    else if type = 1 then .update .ada [("name", cstr value), ("datemodify", cstr curtime)]
      [("cmsid", cstr groupid)]
    else .empty
  if !(← executeSql sql) then return 2
  return 0

-- 0 success, 1 database error, 2 modify fail
def modGroup (groupid : String) (type : Int) (value curtime : String) : DbProg Int := do
  if !(← fetchConnection) then return 1
  let ret ← modGroup.body groupid type value curtime
  recycleConnection
  return ret

-- The schedule of a request: the number of windows and the windows.
def schedule (mktime : Tm → Int) (info : TBDevice) : Option (Int × Windows) :=
  if info.allday = 0 then parseTimeSection mktime info.time_sec0 info.time_sec1 {} else some (0, {})

-- The columns that `add_device` writes.
def newRow (info : TBDevice) (iSize : Int) (w : Windows) (strtime strkid strcustomerid : String) :
    List (String × SqlValue) :=
  let ids := [("datecreate", cstr strtime), ("customer_id", .int (atoi strcustomerid)),
    ("kindergarten_id", .int (atoi strkid))]
  let camera := [("pid", cstr info.pid), ("cmsid", cstr info.groupid), ("name", cstr info.name)]
  if info.allday = 0 then
    if iSize = 2 then
      camera ++ [("allday", .int 0), ("starttime1", cstr w.s0), ("endtime1", cstr w.e0),
        ("starttime2", cstr w.s1), ("endtime2", cstr w.e1)] ++ ids
    else camera ++ [("allday", .int 0), ("starttime1", cstr w.s0), ("endtime1", cstr w.e0)] ++ ids
  else camera ++ [("allday", .int 1)] ++ ids

def addDevice.body (info : TBDevice) (iSize : Int) (w : Windows) (strtime : String) : DbProg Int := do
  if !(← executeSql (.select .cam [("pid", cstr info.pid), ("cmsid", cstr info.groupid)])) then return 1
  match ← storeResult with
  | none => return 1
  | some (_ :: _) => return 3
  | some [] =>
      if !(← executeSql (.select .ada [("cmsid", cstr info.groupid)])) then return 1
      match ← storeResult with
      | none => return 1
      | some [] => return 100
      | some (sqlrow :: _) =>
          match sqlrow 5, sqlrow 6 with
          | some strkid, some strcustomerid =>
              if !(← executeSql (.insert .cam (newRow info iSize w strtime strkid strcustomerid))) then
                return 1
              return 0
          | _, _ => return 100

-- 0 success, 1 database error, 2 invalid time schedule parameter, 3 already exist. A schedule
-- on which `ParseTimeSection` throws does not return.
def addDevice (mktime : Tm → Int) (info : TBDevice) (strtime : String) : DbProg Int :=
  match schedule mktime info with
  | none => .stuck
  | some (iSize, w) => do
      if iSize = -1 then return 2
      if !(← fetchConnection) then return 1
      let ret ← addDevice.body info iSize w strtime
      recycleConnection
      return ret

-- The statement for the history is built and never executed.
def delDevice.body (groupid pid : String) : DbProg Int := do
  if !(← executeSql (.select .cam [("cmsid", cstr groupid), ("pid", cstr pid)])) then return 1
  match ← storeResult with
  | none => return 1
  | some [] => return 2
  | some (sqlrow :: _) =>
      match sqlrow 3, sqlrow 9 with
      | some _, some _ =>
          if !(← executeSql (.delete .cam [("cmsid", cstr groupid), ("pid", cstr pid)])) then return 1
          return 0
      | _, _ => return 100

-- 0 success, 1 database error, 2 camera not exist
def delDevice (groupid pid : String) : DbProg Int := do
  if !(← fetchConnection) then return 1
  let ret ← delDevice.body groupid pid
  recycleConnection
  return ret

-- The columns that `mod_device` writes.
def changedRow (info : TBDevice) (iSize : Int) (w : Windows) (curtime : String) :
    List (String × SqlValue) :=
  if info.allday = 0 then
    if iSize = 2 then
      [("allday", .int 0), ("name", cstr info.name), ("starttime1", cstr w.s0), ("endtime1", cstr w.e0),
        ("starttime2", cstr w.s1), ("endtime2", cstr w.e1), ("datemodify", cstr curtime)]
    else
      [("allday", .int 0), ("name", cstr info.name), ("starttime1", cstr w.s0), ("endtime1", cstr w.e0),
        ("starttime2", .null), ("endtime2", .null), ("datemodify", cstr curtime)]
  else
    [("allday", .int 1), ("name", cstr info.name), ("starttime1", .null), ("endtime1", .null),
      ("starttime2", .null), ("endtime2", .null), ("datemodify", cstr curtime)]

def modDevice.body (info : TBDevice) (iSize : Int) (w : Windows) (curtime : String) : DbProg Int := do
  if !(← executeSql (.update .cam (changedRow info iSize w curtime)
      [("pid", cstr info.pid), ("cmsid", cstr info.groupid)])) then
    return 1
  return 0

-- 0 success, 1 database error, 3 invalid time schedule parameter
def modDevice (mktime : Tm → Int) (info : TBDevice) (curtime : String) : DbProg Int :=
  match schedule mktime info with
  | none => .stuck
  | some (iSize, w) => do
      if iSize = -1 then return 3
      if !(← fetchConnection) then return 1
      let ret ← modDevice.body info iSize w curtime
      recycleConnection
      return ret

end Db

end VideoAdapter.Adapter

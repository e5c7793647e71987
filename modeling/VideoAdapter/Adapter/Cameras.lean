import VideoAdapter.Adapter.Database

namespace VideoAdapter.Adapter

-- The registered clients and the database behind the camera requests.
structure System where
  srv : TcpServer
  db : Database

-- The two members of the JSON text that a request returns.
structure Reply where
  code : Int
  result : String
deriving DecidableEq, Repr

-- What the world contributes to one request: which database interactions go well, the time,
-- the random draws and whether the frame was sent whole.
structure CameraEnv where
  luck : List Bool
  strtime : String
  draws : Nat → Nat
  sent : Bool

def invalidReply : Reply := { code := 200, result := "invalid parameter!" }

def cameraReply (ret : Int) (desc : String) : Reply :=
  { code := if ret = 0 then 100 else 200, result := desc }

-- The windows of a request. `ParseTimeSection` is called for its reference arguments only.
def requestWindows (mktime : Tm → Int) (allday : Int) (sec0 sec1 : String) : Option Windows :=
  if allday = 0 then (parseTimeSection mktime sec0 sec1 {}).map (·.2) else some {}

namespace AdapterServer

section Requests

variable (mktime : Tm → Int)

-- `AddCamera` of the client, when the adapter is registered.
def addToClient (sys : System) (cmsid pid name : String) (allday : Int) (time_sec0 time_sec1 : String)
    (env : CameraEnv) : Option (System × List Sent) :=
  if (sys.srv.getClient cmsid).isNone then some (sys, [])
  else
    (requestWindows mktime allday time_sec0 time_sec1).bind fun w =>
      (adapterStep sys.srv (.addCamera cmsid pid name allday w.s0 w.e0 w.s1 w.e1 env.draws env.sent)).map
        fun out => ({ sys with srv := out.1 }, out.2)

def addDesc (ret : Int) : String :=
  if ret = 0 then "success!"
  else if ret = 1 then "database err!"
  else if ret = 2 then "invalid time schedule parameter!"
  else if ret = 3 then "camera already added!"
  else "error known!"

def addCamera (sys : System) (userid cmsid pid name : String) (allday : Int)
    (time_sec0 time_sec1 : String) (fromweb : Bool) (env : CameraEnv) :
    Option (System × Option Reply × List Sent) :=
  if fromweb then
    (addToClient mktime sys cmsid pid name allday time_sec0 time_sec1 env).map fun out =>
      (out.1, none, out.2)
  else if userid = "" ∨ cmsid = "" ∨ pid = "" ∨ name = "" then some (sys, some invalidReply, [])
  else
    let info : TBDevice := { pid, groupid := cmsid, name, allday, time_sec0, time_sec1 }
    (DbProg.run (Db.addDevice mktime info env.strtime) { db := sys.db, luck := env.luck }).bind fun out =>
      let answer := cameraReply out.1 (addDesc out.1)
      let sys := { sys with db := out.2.db }
      if out.1 = 0 then
        (addToClient mktime sys cmsid pid name allday time_sec0 time_sec1 env).map fun out =>
          (out.1, some answer, out.2)
      else some (sys, some answer, [])

def delFromClient (sys : System) (cmsid pid : String) (env : CameraEnv) : Option (System × List Sent) :=
  (adapterStep sys.srv (.delCamera cmsid pid env.draws env.sent)).map fun out =>
    ({ sys with srv := out.1 }, out.2)

def delDesc (ret : Int) : String :=
  if ret = 0 then "success!"
  else if ret = 1 then "database err!"
  else if ret = 2 then "camera not exist!"
  else "error known!"

def delCamera (sys : System) (userid cmsid pid : String) (fromweb : Bool) (env : CameraEnv) :
    Option (System × Option Reply × List Sent) :=
  if fromweb then (delFromClient sys cmsid pid env).map fun out => (out.1, none, out.2)
  else if userid = "" ∨ cmsid = "" ∨ pid = "" then some (sys, some invalidReply, [])
  else
    (DbProg.run (Db.delDevice cmsid pid) { db := sys.db, luck := env.luck }).bind fun out =>
      let answer := cameraReply out.1 (delDesc out.1)
      let sys := { sys with db := out.2.db }
      if out.1 = 0 then
        (delFromClient sys cmsid pid env).map fun out => (out.1, some answer, out.2)
      else some (sys, some answer, [])

def modifyOnClient (sys : System) (cmsid pid : String) (allday : Int) (sec0 sec1 : String) :
    Option (System × List Sent) :=
  if (sys.srv.getClient cmsid).isNone then some (sys, [])
  else
    (requestWindows mktime allday sec0 sec1).bind fun w =>
      (adapterStep sys.srv (.modifyCamera cmsid pid allday w.s0 w.e0 w.s1 w.e1)).map fun out =>
        ({ sys with srv := out.1 }, out.2)

def modifyDesc (ret : Int) : String :=
  if ret = 0 then "success!"
  else if ret = 1 then "database err!"
  else if ret = 2 then "invalid time schedule parameter!"
  else if ret = 3 then "modify fail!"
  else "error known!"

def modifyCamera (sys : System) (userid cmsid pid name : String) (allday : Int) (sec0 sec1 : String)
    (fromweb : Bool) (env : CameraEnv) : Option (System × Option Reply × List Sent) :=
  if fromweb then
    (modifyOnClient mktime sys cmsid pid allday sec0 sec1).map fun out => (out.1, none, out.2)
  else if userid = "" ∨ cmsid = "" ∨ pid = "" ∨ name = "" ∨ (allday ≠ 0 ∧ allday ≠ 1) then
    some (sys, some invalidReply, [])
  else
    let info : TBDevice := { pid, groupid := cmsid, name, allday, time_sec0 := sec0, time_sec1 := sec1 }
    (DbProg.run (Db.modDevice mktime info env.strtime) { db := sys.db, luck := env.luck }).bind fun out =>
      let answer := cameraReply out.1 (modifyDesc out.1)
      let sys := { sys with db := out.2.db }
      if out.1 = 0 then
        (modifyOnClient mktime sys cmsid pid allday sec0 sec1).map fun out =>
          (out.1, some answer, out.2)
      else some (sys, some answer, [])

end Requests

end AdapterServer

-- A camera request with `fromweb` false.
inductive CameraRequest where
  | add (userid cmsid pid name : String) (allday : Int) (time_sec0 time_sec1 : String)
  | del (userid cmsid pid : String)
  | modify (userid cmsid pid name : String) (allday : Int) (sec0 sec1 : String)
deriving DecidableEq, Repr

def CameraRequest.strings : CameraRequest → List String
  | .add userid cmsid pid name _ time_sec0 time_sec1 => [userid, cmsid, pid, name, time_sec0, time_sec1]
  | .del userid cmsid pid => [userid, cmsid, pid]
  | .modify userid cmsid pid name _ sec0 sec1 => [userid, cmsid, pid, name, sec0, sec1]

def cameraStep (mktime : Tm → Int) (sys : System) (event : CameraRequest × CameraEnv) :
    Option (System × Option Reply × List Sent) :=
  match event.1 with
  | .add userid cmsid pid name allday time_sec0 time_sec1 =>
      AdapterServer.addCamera mktime sys userid cmsid pid name allday time_sec0 time_sec1 false event.2
  | .del userid cmsid pid => AdapterServer.delCamera sys userid cmsid pid false event.2
  | .modify userid cmsid pid name allday sec0 sec1 =>
      AdapterServer.modifyCamera mktime sys userid cmsid pid name allday sec0 sec1 false event.2

end VideoAdapter.Adapter

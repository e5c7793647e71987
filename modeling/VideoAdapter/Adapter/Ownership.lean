import VideoAdapter.Adapter.Coherence
import VideoAdapter.Adapter.Outcomes

namespace VideoAdapter.Adapter

open Lib

def CameraRequest.userid : CameraRequest → String
  | .add userid .. => userid
  | .del userid .. => userid
  | .modify userid .. => userid

def CameraRequest.cmsid : CameraRequest → String
  | .add _ cmsid .. => cmsid
  | .del _ cmsid .. => cmsid
  | .modify _ cmsid .. => cmsid

-- The adapter has a row, and none that `get_group_info` would accept for the user.
def Foreign (db : Database) (userid cmsid : String) : Prop :=
  (∃ record ∈ db.rows .ada, holds [("cmsid", cstr cmsid)] record = true) ∧ ¬ Owns db userid cmsid

-- The cameras of all adapters, in the table and in memory, stay as they are.
structure Untouched (before after : System) : Prop where
  rows : after.db.rows .cam = before.db.rows .cam
  devlists : after.srv.clientlist.map (·.devlist) = before.srv.clientlist.map (·.devlist)

-- The row has these values already.
def Has (values : List (String × SqlValue)) (record : Record) : Prop :=
  ∀ name value, values.lookup name = some value → record name = value.stored

-- What a modification writes is there already, in the rows of the camera and in the record that
-- the adapter's client has of it.
structure Already (sys : System) (cmsid pid : String) (values : List (String × SqlValue))
    (allday : Int) (w : Windows) : Prop where
  rows : ∀ record ∈ sys.db.rows .cam, holds (Db.keyCond cmsid pid) record = true → Has values record
  record : ∀ p node, sys.srv.getClient cmsid = some p → p.devlist[pid]? = some node →
    node.allday = allday ∧ node.windows = w

-- A request that changes something, whoever makes it.
def Changes (mktime : Tm → Int) (sys : System) (env : CameraEnv) : CameraRequest → Prop
  | .add userid cmsid pid name allday time_sec0 time_sec1 =>
      ¬ (userid = "" ∨ cmsid = "" ∨ pid = "" ∨ name = "") ∧ lucky 6 env.luck = true ∧
        Accepted mktime { pid, groupid := cmsid, name, allday, time_sec0, time_sec1 } ∧
        Free sys.db cmsid pid ∧ Staffed sys.db cmsid
  | .del userid cmsid pid =>
      ¬ (userid = "" ∨ cmsid = "" ∨ pid = "") ∧ lucky 4 env.luck = true ∧ Deletable sys.db cmsid pid
  | .modify userid cmsid pid name allday sec0 sec1 =>
      let info : TBDevice := { pid, groupid := cmsid, name, allday, time_sec0 := sec0, time_sec1 := sec1 }
      ¬ (userid = "" ∨ cmsid = "" ∨ pid = "" ∨ name = "" ∨ (allday ≠ 0 ∧ allday ≠ 1)) ∧
        lucky 2 env.luck = true ∧ ∃ iSize w, Db.schedule mktime info = some (iSize, w) ∧ iSize ≠ -1 ∧
          ¬ Already sys cmsid pid (Db.changedRow info iSize w env.strtime) allday w

theorem Untouched.rfl {sys : System} : Untouched sys sys := ⟨Eq.refl _, Eq.refl _⟩

theorem assign_eq_self_iff (values : List (String × SqlValue)) (record : Record) :
    assign values record = record ↔ Has values record := by
  constructor
  · intro heq name value hlookup
    have hname := congrFun heq name
    unfold assign at hname
    rw [hlookup] at hname
    exact hname.symm
  · intro hhas
    funext name
    unfold assign
    split
    · rename_i value hlookup
      exact (hhas name value hlookup).symm
    · rfl

theorem map_assign_eq_self_iff {values cond : List (String × SqlValue)} (records : List Record) :
    (records.map fun record => if holds cond record then assign values record else record) = records ↔
      ∀ record ∈ records, holds cond record = true → Has values record := by
  have hid : records.map id = records := List.map_id records
  rw [← hid.congr_right, List.map_inj_left]
  refine forall₂_congr fun record _ => ?_
  rw [← assign_eq_self_iff]
  split_ifs with hholds
  · simp [hholds]
  · simp [hholds]

theorem modifyCamera_eq_self_iff (devlist : DevList) (pid : String) (allday : Int) (w : Windows) :
    modifyCamera devlist pid allday w.s0 w.e0 w.s1 w.e1 = devlist ↔
      ∀ node, devlist[pid]? = some node → node.allday = allday ∧ node.windows = w := by
  constructor
  · intro heq node hnode
    have hlookup := congrArg (fun d : DevList => d[pid]?) heq
    simp only [modifyCamera, Std.ExtTreeMap.getElem?_modify_self, hnode, Option.map_some,
      Option.some.injEq] at hlookup
    rw [← hlookup]
    exact ⟨rfl, rfl⟩
  · intro hall
    refine Std.ExtTreeMap.ext_getElem? fun other => ?_
    rw [modifyCamera, Std.ExtTreeMap.getElem?_modify]
    split_ifs with hother
    · obtain rfl : pid = other := Std.LawfulEqCmp.eq_of_compare hother
      cases hnode : devlist[pid]? with
      | none => rfl
      | some node =>
          obtain ⟨hday, hw⟩ := hall node hnode
          rw [Option.map_some, ← hday, ← hw]
          rfl
    · rfl

-- Writing to the client found changes the tables as a whole exactly where it changes that one.
theorem devlists_setDevlist {srv : TcpServer} {cmsid : String} {p : CMSClient} {devlist : DevList}
    (hp : srv.getClient cmsid = some p) :
    (srv.setDevlist cmsid devlist).clientlist.map (·.devlist) = srv.clientlist.map (·.devlist) ↔
      devlist = p.devlist :=
  map_updateFirst_eq_iff (fun client : CMSClient => client.devlist) hp (y := { p with devlist }) rfl

section Requests

variable {mktime : Tm → Int} {sys : System} {env : CameraEnv} {userid cmsid pid name sec0 sec1 : String}
  {allday : Int}

-- The three functions alike: a refused request and one on which the database fails do nothing.
theorem request_untouched_iff (bad : Prop) [Decidable bad] {prog : DbProg Int} {s : Session}
    (client : System → Option (System × List Sent)) {invalid : Reply} (answer : Int → Reply)
    (hfail : ∀ ret s', DbProg.run prog s = some (ret, s') → ret ≠ 0 → s'.db = sys.db) :
    (∀ after, (if bad then some (sys, some invalid, [])
      else (DbProg.run prog s).bind fun out =>
        if out.1 = 0 then
          (client { sys with db := out.2.db }).map fun c => (c.1, some (answer out.1), c.2)
        else some ({ sys with db := out.2.db }, some (answer out.1), [])) = some after →
      Untouched sys after.1) ↔
      (¬ bad → ∀ s', DbProg.run prog s = some (0, s') →
        ∀ c, client { sys with db := s'.db } = some c → Untouched sys c.1) := by
  by_cases hbad : bad
  · rw [if_pos hbad]
    refine iff_of_true (fun after h => ?_) fun h => absurd hbad h
    cases h
    exact .rfl
  · rw [if_neg hbad]
    constructor
    · intro hall _ s' hrun c hc
      exact hall (c.1, some (answer 0), c.2) (by rw [hrun, Option.bind_some, if_pos rfl, hc]; rfl)
    · intro hall after h
      obtain ⟨⟨ret, s'⟩, hrun, h⟩ := Option.bind_eq_some_iff.mp h
      dsimp only at h
      split_ifs at h with hret
      · subst hret
        obtain ⟨c, hc, rfl⟩ := Option.map_eq_some_iff.mp h
        exact hall hbad s' hrun c hc
      · cases h
        have hsame := hfail ret s' hrun hret
        exact ⟨by rw [hsame], rfl⟩

theorem addToClient_some {w : Windows} (hw : requestWindows mktime allday sec0 sec1 = some w) :
    ∃ c, AdapterServer.addToClient mktime sys cmsid pid name allday sec0 sec1 env = some c ∧
      c.1.db = sys.db := by
  unfold AdapterServer.addToClient
  split
  · exact ⟨_, rfl, rfl⟩
  · rw [hw, Option.bind_some]
    simp only [adapterStep]
    split
    · exact ⟨_, rfl, rfl⟩
    · exact ⟨_, rfl, rfl⟩

theorem delFromClient_some (sys : System) (cmsid pid : String) (env : CameraEnv) :
    ∃ c, AdapterServer.delFromClient sys cmsid pid env = some c ∧ c.1.db = sys.db := by
  unfold AdapterServer.delFromClient
  simp only [adapterStep]
  split
  · exact ⟨_, rfl, rfl⟩
  · split
    · exact ⟨_, rfl, rfl⟩
    · exact ⟨_, rfl, rfl⟩

theorem add_untouched_iff :
    (∀ after, AdapterServer.addCamera mktime sys userid cmsid pid name allday sec0 sec1 false env =
      some after → Untouched sys after.1) ↔
      ¬ Changes mktime sys env (.add userid cmsid pid name allday sec0 sec1) := by
  refine (request_untouched_iff (userid = "" ∨ cmsid = "" ∨ pid = "" ∨ name = "")
    (AdapterServer.addToClient mktime · cmsid pid name allday sec0 sec1 env)
    (fun ret => cameraReply ret (AdapterServer.addDesc ret)) fun ret s' hrun hret => ?_).trans ?_
  · rcases Db.addDevice_run hrun with ⟨-, hsame⟩ | ⟨hzero, -⟩
    · exact hsame
    · exact absurd hzero hret
  · rw [Changes, not_and]
    refine imp_congr_right fun hcomplete => ?_
    rw [← Db.addDevice_returns_zero (s := { db := sys.db, luck := env.luck })]
    constructor
    · rintro hall ⟨s', hrun⟩
      rcases Db.addDevice_run hrun with ⟨hne, -⟩ | ⟨-, iSize, w, strkid, strcustomerid, hs, -, -, hdb⟩
      · exact hne rfl
      · obtain ⟨c, hc, hcdb⟩ := addToClient_some (requestWindows_of_schedule hs)
        have hrows := (hall s' hrun c hc).rows
        rw [hcdb, hdb, Database.apply_insert_rows] at hrows
        simp at hrows
    · intro hnot s' hrun
      exact absurd ⟨s', hrun⟩ hnot

-- The rows that go were there, so the table is another one.
theorem del_untouched_iff :
    (∀ after, AdapterServer.delCamera sys userid cmsid pid false env = some after →
      Untouched sys after.1) ↔ ¬ Changes mktime sys env (.del userid cmsid pid) := by
  refine (request_untouched_iff (userid = "" ∨ cmsid = "" ∨ pid = "")
    (AdapterServer.delFromClient · cmsid pid env)
    (fun ret => cameraReply ret (AdapterServer.delDesc ret)) fun ret s' hrun hret => ?_).trans ?_
  · rcases Db.delDevice_run hrun with ⟨-, hsame⟩ | ⟨hzero, -⟩
    · exact hsame
    · exact absurd hzero hret
  · rw [Changes, not_and]
    refine imp_congr_right fun hcomplete => ?_
    rw [← Db.delDevice_returns_zero (s := { db := sys.db, luck := env.luck })]
    constructor
    · rintro hall ⟨s', hrun⟩
      have hfound := (Db.delDevice_returns_zero.mp ⟨s', hrun⟩).2
      rcases Db.delDevice_run hrun with ⟨hne, -⟩ | ⟨-, hdb⟩
      · exact hne rfl
      · obtain ⟨c, hc, hcdb⟩ := delFromClient_some { sys with db := s'.db } cmsid pid env
        have hrows := (hall s' hrun c hc).rows
        rw [hcdb, hdb, Database.apply_delete_rows, List.filter_eq_self] at hrows
        obtain ⟨sqlrow, rest, hresult, -⟩ := hfound
        have hnone : sys.db.result (.select .cam (Db.keyCond cmsid pid)) = [] :=
          result_select_eq_nil.mpr fun record hrecord => by simpa using hrows record hrecord
        rw [hnone] at hresult
        cases hresult
    · intro hnot s' hrun
      exact absurd ⟨s', hrun⟩ hnot

-- The client is written to after the table. Both stay as they are if they have it all already.
theorem modifyOnClient_untouched_iff {info : TBDevice} {iSize : Int} {w : Windows} {db : Database}
    (hinfo : info = { pid, groupid := cmsid, name, allday, time_sec0 := sec0, time_sec1 := sec1 })
    (hs : Db.schedule mktime info = some (iSize, w))
    (hdb : db = sys.db.apply (.update .cam (Db.changedRow info iSize w env.strtime)
      [("pid", cstr info.pid), ("cmsid", cstr info.groupid)])) :
    (∀ c, AdapterServer.modifyOnClient mktime { sys with db } cmsid pid allday sec0 sec1 = some c →
      Untouched sys c.1) ↔
      Already sys cmsid pid (Db.changedRow info iSize w env.strtime) allday w := by
  have hrows : db.rows .cam = sys.db.rows .cam ↔
      ∀ record ∈ sys.db.rows .cam, holds (Db.keyCond cmsid pid) record = true →
        Has (Db.changedRow info iSize w env.strtime) record := by
    rw [hdb, Database.apply_update_rows, map_assign_eq_self_iff]
    refine forall₂_congr fun record _ => ?_
    rw [hinfo, holds_swap]
  have hw : requestWindows mktime allday sec0 sec1 = some w := by
    have h := requestWindows_of_schedule hs
    rw [hinfo] at h
    exact h
  unfold AdapterServer.modifyOnClient
  cases hp : sys.srv.getClient cmsid with
  | none =>
      rw [if_pos (by simp)]
      constructor
      · intro hall
        refine ⟨hrows.mp (hall _ rfl).rows, fun p node hsome => ?_⟩
        rw [hp] at hsome
        cases hsome
      · rintro hhas c hc
        cases hc
        exact ⟨hrows.mpr hhas.rows, rfl⟩
  | some p =>
      rw [if_neg (by simp), hw, Option.bind_some]
      simp only [adapterStep, hp, Option.map_some]
      have hlists : ((sys.srv.setDevlist cmsid (Adapter.modifyCamera p.devlist pid allday w.s0 w.e0 w.s1
          w.e1)).clientlist.map (·.devlist)) = sys.srv.clientlist.map (·.devlist) ↔
          ∀ node, p.devlist[pid]? = some node → node.allday = allday ∧ node.windows = w := by
        rw [devlists_setDevlist hp, modifyCamera_eq_self_iff]
      constructor
      · intro hall
        have hsame := hall _ rfl
        refine ⟨hrows.mp hsame.rows, fun q node hq hnode => ?_⟩
        rw [hp] at hq
        cases hq
        exact hlists.mp hsame.devlists node hnode
      · rintro hhas c hc
        cases hc
        exact ⟨hrows.mpr hhas.rows, hlists.mpr fun node hnode => hhas.record p node hp hnode⟩

theorem modify_untouched_iff :
    (∀ after, AdapterServer.modifyCamera mktime sys userid cmsid pid name allday sec0 sec1 false env =
      some after → Untouched sys after.1) ↔
      ¬ Changes mktime sys env (.modify userid cmsid pid name allday sec0 sec1) := by
  refine (request_untouched_iff
    (userid = "" ∨ cmsid = "" ∨ pid = "" ∨ name = "" ∨ (allday ≠ 0 ∧ allday ≠ 1))
    (AdapterServer.modifyOnClient mktime · cmsid pid allday sec0 sec1)
    (fun ret => cameraReply ret (AdapterServer.modifyDesc ret)) fun ret s' hrun hret => ?_).trans ?_
  · rcases Db.modDevice_run hrun with ⟨-, hsame⟩ | ⟨hzero, -⟩
    · exact hsame
    · exact absurd hzero hret
  · rw [Changes, not_and]
    refine imp_congr_right fun hcomplete => ?_
    constructor
    · rintro hall ⟨hlucky, iSize, w, hs, hvalid, hnew⟩
      obtain ⟨s', hrun⟩ := Db.modDevice_returns_zero
        (s := { db := sys.db, luck := env.luck }).mpr ⟨hlucky, iSize, w, hs, hvalid⟩
      rcases Db.modDevice_run hrun with ⟨hne, -⟩ | ⟨-, iSize', w', hs', -, hdb⟩
      · exact hne rfl
      · cases hs.symm.trans hs'
        exact hnew ((modifyOnClient_untouched_iff rfl hs hdb).mp (hall s' hrun))
    · intro hnot s' hrun
      rcases Db.modDevice_run hrun with ⟨hne, -⟩ | ⟨-, iSize, w, hs, hvalid, hdb⟩
      · exact absurd rfl hne
      · have hlucky := (Db.modDevice_returns_zero.mp ⟨s', hrun⟩).1
        refine (modifyOnClient_untouched_iff rfl hs hdb).mpr ?_
        by_contra hnew
        exact hnot ⟨hlucky, iSize, w, hs, hvalid, hnew⟩

end Requests

-- Nobody asks whose adapter it is: a request for another user's cameras leaves them as they are
-- exactly when it would change nothing for their owner either.
theorem foreign_untouched_iff (mktime : Tm → Int) (sys : System) (request : CameraRequest)
    (env : CameraEnv) :
    (Foreign sys.db request.userid request.cmsid →
      ∀ after, cameraStep mktime sys (request, env) = some after → Untouched sys after.1) ↔
      (Foreign sys.db request.userid request.cmsid → ¬ Changes mktime sys env request) := by
  refine imp_congr_right fun _ => ?_
  cases request with
  | add userid cmsid pid name allday time_sec0 time_sec1 => exact add_untouched_iff
  | del userid cmsid pid => exact del_untouched_iff
  | modify userid cmsid pid name allday sec0 sec1 => exact modify_untouched_iff

-- User 2 adds a camera to the adapter of user 1.
theorem foreign_camera_added : ∃ after,
    Foreign oneAdapter "2" "c" ∧
    cameraStep (fun tm => tm.seconds) { srv := ⟨[]⟩, db := oneAdapter }
      (.add "2" "c" "p" "n" 1 "" "", smoothEnv) = some after ∧
    ¬ Untouched { srv := ⟨[]⟩, db := oneAdapter } after.1 := by
  refine ⟨_, ?_, rfl, fun h => ?_⟩
  · unfold Foreign Owns
    decide +kernel
  · have hlength := congrArg List.length h.rows
    revert hlength
    decide +kernel

end VideoAdapter.Adapter

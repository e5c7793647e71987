import VideoAdapter.Lib.Run
import VideoAdapter.Adapter.CameraTable

namespace VideoAdapter.Adapter

open Lib

-- The schedules that a client enforces.
def memorySchedule (devlist : DevList) (pid : String) : Option Effective :=
  devlist[pid]?.map DeviceNode.effective

theorem memorySchedule_addCamera (devlist : DevList) (pid name : String) (allday : Int) (w : Windows)
    (other : String) :
    memorySchedule (addCamera devlist pid name allday w.s0 w.e0 w.s1 w.e1) other =
      if other = pid then some (asked allday w) else memorySchedule devlist other := by
  rw [memorySchedule, addCamera, Std.ExtTreeMap.getElem?_insert]
  by_cases h : pid = other
  · subst h
    simp [newCamera_effective, asked]
  · simp [h, Ne.symm h, memorySchedule]

theorem memorySchedule_delCamera (devlist : DevList) (pid other : String) :
    memorySchedule (delCamera devlist pid) other =
      if other = pid then none else memorySchedule devlist other := by
  rw [memorySchedule, delCamera, Std.ExtTreeMap.getElem?_erase]
  by_cases h : pid = other
  · simp [h]
  · simp [h, Ne.symm h, memorySchedule]

theorem memorySchedule_modifyCamera (devlist : DevList) (pid : String) (allday : Int) (w : Windows)
    (other : String) :
    memorySchedule (modifyCamera devlist pid allday w.s0 w.e0 w.s1 w.e1) other =
      if other = pid then (memorySchedule devlist other).map fun _ => asked allday w
      else memorySchedule devlist other := by
  rw [memorySchedule, modifyCamera, Std.ExtTreeMap.getElem?_modify]
  by_cases h : pid = other
  · subst h
    cases hp : devlist[pid]? with
    | none => simp [memorySchedule, hp]
    | some p => simp [memorySchedule, hp, DeviceNode.effective, DeviceNode.windows, asked]
  · simp [h, Ne.symm h, memorySchedule]

-- Memory and table of one adapter say the same.
structure Coherent (cmsid : String) (sys : System) : Prop where
  tidy : Tidy cmsid (sys.db.rows .cam)
  single : (sys.srv.clientlist.map (·.cmsid)).count cmsid ≤ 1
  agree : ∀ client ∈ sys.srv.clientlist, client.cmsid = cmsid →
    ∀ pid, memorySchedule client.devlist pid = tableSchedule (sys.db.rows .cam) cmsid pid

-- The clients of an adapter after a write to its device table, or to another adapter's.
theorem agree_setDevlist {srv : TcpServer} {cmsid cmsid' : String} {old new : String → Option Effective}
    (hsingle : (srv.clientlist.map (·.cmsid)).count cmsid ≤ 1)
    (hagree : ∀ client ∈ srv.clientlist, client.cmsid = cmsid →
      ∀ pid, memorySchedule client.devlist pid = old pid)
    {p : CMSClient} (hp : srv.getClient cmsid' = some p) {devlist : DevList}
    (hown : cmsid' = cmsid → (∀ pid, memorySchedule p.devlist pid = old pid) →
      ∀ pid, memorySchedule devlist pid = new pid)
    (hother : cmsid' ≠ cmsid → ∀ pid, new pid = old pid) :
    ∀ client ∈ (srv.setDevlist cmsid' devlist).clientlist, client.cmsid = cmsid →
      ∀ pid, memorySchedule client.devlist pid = new pid := by
  intro client hclient hcms pid
  by_cases heq : cmsid' = cmsid
  · subst heq
    obtain ⟨x, hx, hfx⟩ := mem_updateFirst_of_count hsingle hclient hcms
    obtain rfl : x = p := Option.some.inj (hx.symm.trans hp)
    cases hfx
    have hmem := List.mem_of_find?_eq_some hx
    exact hown rfl (hagree x hmem hcms) pid
  · rcases mem_updateFirst hclient with hmem | ⟨x, hx, hfx⟩
    · rw [hother heq, hagree client hmem hcms pid]
    · cases hfx
      have hx' := List.find?_some hx
      exact absurd ((of_decide_eq_true hx').symm.trans hcms) heq

theorem count_setDevlist {srv : TcpServer} {cmsid cmsid' : String} {devlist : DevList}
    (h : (srv.clientlist.map (·.cmsid)).count cmsid ≤ 1) :
    ((srv.setDevlist cmsid' devlist).clientlist.map (·.cmsid)).count cmsid ≤ 1 := by
  refine ((map_updateFirst_sublist ?_ srv.clientlist).count_le cmsid).trans h
  intro x y hxy
  cases hxy
  rfl

-- A change of the table that a write to the client's device table follows. Without a client
-- there is nothing to write to.
theorem Coherent.follow {cmsid : String} {sys : System} (h : Coherent cmsid sys) (cmsid' : String) {db : Database}
    (htidy : Tidy cmsid (db.rows .cam))
    (hother : cmsid' ≠ cmsid → ∀ pid, tableSchedule (db.rows .cam) cmsid pid =
      tableSchedule (sys.db.rows .cam) cmsid pid) :
    (sys.srv.getClient cmsid' = none → Coherent cmsid { srv := sys.srv, db }) ∧
      ∀ p devlist, sys.srv.getClient cmsid' = some p →
        (cmsid' = cmsid → (∀ pid, memorySchedule p.devlist pid = tableSchedule (sys.db.rows .cam) cmsid pid) →
          ∀ pid, memorySchedule devlist pid = tableSchedule (db.rows .cam) cmsid pid) →
        Coherent cmsid { srv := sys.srv.setDevlist cmsid' devlist, db } := by
  constructor
  · intro hnone
    refine ⟨htidy, h.single, fun client hclient hcms pid => ?_⟩
    by_cases heq : cmsid' = cmsid
    · have hmiss := List.find?_eq_none.mp hnone client hclient
      exact absurd (decide_eq_true (hcms.trans heq.symm)) hmiss
    · exact (h.agree client hclient hcms pid).trans (hother heq pid).symm
  · intro p devlist hp hown
    exact ⟨htidy, count_setDevlist h.single, agree_setDevlist h.single h.agree hp hown hother⟩

theorem setDevlist_self {srv : TcpServer} {cmsid : String} {p : CMSClient}
    (hp : srv.getClient cmsid = some p) : srv.setDevlist cmsid p.devlist = srv := by
  refine congrArg TcpServer.mk (updateFirst_fixed fun x hx => ?_)
  obtain rfl : x = p := Option.some.inj (hx.symm.trans hp)
  rfl

theorem Coherent.delClient {cmsid : String} {sys : System} (h : Coherent cmsid sys) (fd : Int) :
    Coherent cmsid { sys with srv := sys.srv.delClient fd } := by
  refine ⟨h.tidy, ?_, fun client hclient hcms pid => ?_⟩
  · refine ((map_updateFirst_sublist ?_ sys.srv.clientlist).count_le cmsid).trans h.single
    intro x y hxy
    cases hxy
  · rcases mem_updateFirst hclient with hmem | ⟨x, -, hfx⟩
    · exact h.agree client hmem hcms pid
    · cases hfx

-- The frame after the write is sent, or the client is gone.
theorem Coherent.notifyChange {cmsid cmsid' : String} {srv : TcpServer} {db : Database} {p : CMSClient}
    {devlist : DevList} (hp : srv.getClient cmsid' = some p)
    (h : Coherent cmsid { srv := srv.setDevlist cmsid' devlist, db }) (type : Int) (pid : String)
    (draws : Nat → Nat) (sent : Bool) :
    Coherent cmsid { srv := (srv.notifyChange p devlist type pid draws sent).1, db } := by
  have hcms : p.cmsid = cmsid' := by
    have hfound := List.find?_some hp
    exact of_decide_eq_true hfound
  unfold TcpServer.notifyChange
  rw [hcms]
  split
  · exact h
  · exact h.delClient p.fd

section Statements

variable {cmsid : String} {db : Database} {iSize : Int} {w : Windows}

theorem holds_key {pid groupid : String} (hpid : Plain pid) (hcms : Plain groupid) (record : Record) :
    holds [("pid", cstr pid), ("cmsid", cstr groupid)] record = true ↔
      record "cmsid" = some groupid ∧ record "pid" = some pid := by
  simp [holds, cstr_of_plain hpid, cstr_of_plain hcms, SqlValue.equals, and_comm]

theorem insert_table (info : TBDevice) (htidy : Tidy cmsid (db.rows .cam)) (hw : w.Stored iSize)
    (hpid : Plain info.pid) (hcms : Plain info.groupid)
    (hfree : ∀ record ∈ db.rows .cam,
      holds [("pid", cstr info.pid), ("cmsid", cstr info.groupid)] record = false)
    (strtime strkid strcustomerid : String) :
    let after := db.apply (.insert .cam (Db.newRow info iSize w strtime strkid strcustomerid))
    Tidy cmsid (after.rows .cam) ∧ ∀ other, tableSchedule (after.rows .cam) cmsid other =
      if cmsid = info.groupid ∧ other = info.pid then some (asked info.allday w)
      else tableSchedule (db.rows .cam) cmsid other := by
  obtain ⟨hgood, hrcms, hrpid, heffective⟩ :=
    newRow_spec info hw hpid hcms strtime strkid strcustomerid db.nextId
  have hnew : cmsid = info.groupid → ∀ r ∈ ownRows cmsid (db.rows .cam), r "pid" ≠ some info.pid := by
    intro heq r hr hrp
    obtain ⟨hr, hrc⟩ := mem_ownRows.mp hr
    have hmatch := (holds_key hpid hcms r).mpr ⟨heq ▸ hrc, hrp⟩
    rw [hfree r hr] at hmatch
    cases hmatch
  dsimp only
  rw [Database.apply_insert_rows]
  constructor
  · refine htidy.append hgood fun hown r hr => ?_
    rw [hrpid]
    exact hnew (Option.some.inj (hown.symm.trans hrcms)) r hr
  · intro other
    by_cases heq : cmsid = info.groupid
    · rw [tableSchedule_append_own (heq ▸ hrcms) hrpid (hnew heq), heffective]
      simp [heq]
    · rw [tableSchedule_append_other (by rw [hrcms]; exact fun h => heq (Option.some.inj h).symm)]
      simp [heq]

theorem delete_table {groupid pid : String} (htidy : Tidy cmsid (db.rows .cam)) (hpid : Plain pid)
    (hcms : Plain groupid) :
    let after := db.apply (.delete .cam (Db.keyCond groupid pid))
    Tidy cmsid (after.rows .cam) ∧ ∀ other, tableSchedule (after.rows .cam) cmsid other =
      if cmsid = groupid ∧ other = pid then none else tableSchedule (db.rows .cam) cmsid other := by
  dsimp only
  rw [Database.apply_delete_rows]
  refine ⟨htidy.filter _, fun other => tableSchedule_filter (fun r => ?_) other⟩
  simp [Db.keyCond, holds, cstr_of_plain hpid, cstr_of_plain hcms, SqlValue.equals]

theorem update_table (info : TBDevice) (htidy : Tidy cmsid (db.rows .cam)) (hw : w.Stored iSize)
    (hpid : Plain info.pid) (hcms : Plain info.groupid) (curtime : String) :
    let after := db.apply (.update .cam (Db.changedRow info iSize w curtime)
      [("pid", cstr info.pid), ("cmsid", cstr info.groupid)])
    Tidy cmsid (after.rows .cam) ∧ ∀ other, tableSchedule (after.rows .cam) cmsid other =
      if cmsid = info.groupid ∧ other = info.pid then
        (tableSchedule (db.rows .cam) cmsid other).map fun _ => asked info.allday w
      else tableSchedule (db.rows .cam) cmsid other := by
  dsimp only
  rw [Database.apply_update_rows]
  have hspec := changedRow_spec info hw curtime
  have hcmsid : ∀ r : Record, (if holds [("pid", cstr info.pid), ("cmsid", cstr info.groupid)] r then
      assign (Db.changedRow info iSize w curtime) r else r) "cmsid" = r "cmsid" := by
    intro r
    split
    · exact (hspec r).2.1
    · rfl
  have hpids : ∀ r : Record, (if holds [("pid", cstr info.pid), ("cmsid", cstr info.groupid)] r then
      assign (Db.changedRow info iSize w curtime) r else r) "pid" = r "pid" := by
    intro r
    split
    · exact (hspec r).2.2.1
    · rfl
  constructor
  · refine htidy.map hcmsid hpids fun r hgood => ?_
    split
    · exact (hspec r).1 hgood
    · exact hgood
  · refine tableSchedule_map hcmsid hpids (fun r hr hrp => ?_) fun r hne => ?_
    · rw [if_pos ((holds_key hpid hcms r).mpr ⟨hr, hrp⟩)]
      exact (hspec r).2.2.2
    · exact if_neg fun hkey => hne ((holds_key hpid hcms r).mp hkey)

end Statements

theorem requestWindows_of_schedule {mktime : Tm → Int} {info : TBDevice} {iSize : Int} {w : Windows}
    (h : Db.schedule mktime info = some (iSize, w)) :
    requestWindows mktime info.allday info.time_sec0 info.time_sec1 = some w := by
  unfold Db.schedule at h
  unfold requestWindows
  split
  · rename_i hday
    rw [if_pos hday] at h
    rw [h]
    rfl
  · rename_i hday
    rw [if_neg hday] at h
    cases h
    rfl

section Requests

variable {cmsid cmsid' userid pid name sec0 sec1 : String} {mktime : Tm → Int} {allday : Int}
  {sys after : System} {env : CameraEnv} {out : Option Reply × List Sent}

-- A request changes the database first. If that fails it has no effect, else it goes on to the client.
theorem request_cases {prog : DbProg Int} {luck : List Bool} (answer : Int → Reply)
    (toClient : System → Option (System × List Sent))
    (h : ((DbProg.run prog { db := sys.db, luck }).bind fun result =>
      if result.1 = 0 then
        (toClient { sys with db := result.2.db }).map fun reached =>
          (reached.1, some (answer result.1), reached.2)
      else some ({ sys with db := result.2.db }, some (answer result.1), [])) = some (after, out)) :
    ∃ ret s, DbProg.run prog { db := sys.db, luck } = some (ret, s) ∧
      ((ret ≠ 0 ∧ after = { sys with db := s.db }) ∨
        (ret = 0 ∧ ∃ sent, toClient { sys with db := s.db } = some (after, sent))) := by
  obtain ⟨⟨ret, s⟩, hrun, h⟩ := Option.bind_eq_some_iff.mp h
  refine ⟨ret, s, hrun, ?_⟩
  dsimp only at h
  split at h
  · rename_i hret
    obtain ⟨⟨reached, sent⟩, hclient, heq⟩ := Option.map_eq_some_iff.mp h
    cases heq
    exact .inr ⟨hret, sent, hclient⟩
  · rename_i hret
    cases h
    exact .inl ⟨hret, rfl⟩

theorem Coherent.of_failed (h : Coherent cmsid sys) {ret : Int} {s : Session} {reached : Prop}
    (hresult : (ret ≠ 0 ∧ after = { sys with db := s.db }) ∨ (ret = 0 ∧ reached)) (hret : ret ≠ 0)
    (hdb : s.db = sys.db) : Coherent cmsid after := by
  obtain ⟨-, rfl⟩ := hresult.resolve_right fun hok => hret hok.1
  rw [hdb]
  exact h

-- A request with windows stops at an adapter that is not registered.
theorem toClient_cases {event : Windows → AdapterEvent} {sent : List Sent} {w : Windows}
    (hwindows : requestWindows mktime allday sec0 sec1 = some w)
    (h : (if (sys.srv.getClient cmsid').isNone then some (sys, [])
      else (requestWindows mktime allday sec0 sec1).bind fun w =>
        (adapterStep sys.srv (event w)).map fun result => ({ sys with srv := result.1 }, result.2)) =
        some (after, sent)) :
    (sys.srv.getClient cmsid' = none ∧ after = sys) ∨
      ∃ p result, sys.srv.getClient cmsid' = some p ∧ adapterStep sys.srv (event w) = some result ∧
        after = { sys with srv := result.1 } := by
  split at h
  · rename_i hoffline
    cases h
    exact .inl ⟨Option.isNone_iff_eq_none.mp hoffline, rfl⟩
  · rename_i honline
    rw [hwindows, Option.bind_some] at h
    obtain ⟨result, hstep, heq⟩ := Option.map_eq_some_iff.mp h
    cases heq
    obtain ⟨p, hp⟩ := Option.ne_none_iff_exists'.mp fun hnone =>
      honline (Option.isNone_iff_eq_none.mpr hnone)
    exact .inr ⟨p, result, hp, hstep, rfl⟩

theorem Coherent.addCamera (h : Coherent cmsid sys) (hcms : Plain cmsid') (hpid : Plain pid)
    (h0 : Plain sec0) (h1 : Plain sec1)
    (hstep : AdapterServer.addCamera mktime sys userid cmsid' pid name allday sec0 sec1 false env =
      some (after, out)) : Coherent cmsid after := by
  unfold AdapterServer.addCamera at hstep
  rw [if_neg Bool.false_ne_true] at hstep
  split at hstep
  · cases hstep
    exact h
  · obtain ⟨ret, s, hrun, hresult⟩ := request_cases (fun ret => cameraReply ret (AdapterServer.addDesc ret))
      (fun sys => AdapterServer.addToClient mktime sys cmsid' pid name allday sec0 sec1 env) hstep
    rcases Db.addDevice_run hrun with
      ⟨hret, hdb⟩ | ⟨hret, iSize, w, strkid, strcustomerid, hschedule, hvalid, hfree, hdb⟩
    · exact h.of_failed hresult hret hdb
    · obtain ⟨-, sent, hclient⟩ := hresult.resolve_left fun hfailed => hfailed.1 hret
      rw [hdb] at hclient
      have hw := schedule_stored hschedule hvalid h0 h1
      obtain ⟨htidy, htable⟩ := insert_table
        { pid, groupid := cmsid', name, allday, time_sec0 := sec0, time_sec1 := sec1 } h.tidy hw hpid
        hcms hfree env.strtime strkid strcustomerid
      obtain ⟨hnone, hsome⟩ := h.follow cmsid' htidy fun hne other => by
        rw [htable, if_neg fun heq => hne heq.1.symm]
      rcases toClient_cases (requestWindows_of_schedule hschedule) hclient with
        ⟨hoffline, rfl⟩ | ⟨p, result, hp, hadded, rfl⟩
      · exact hnone hoffline
      · simp only [adapterStep, show sys.srv.getClient cmsid' = some p from hp, Option.some.injEq] at hadded
        subst hadded
        refine Coherent.notifyChange hp (hsome p _ hp fun heq hagree other => ?_) 1 pid env.draws env.sent
        rw [memorySchedule_addCamera, htable, hagree]
        simp [heq]

theorem Coherent.delCamera (h : Coherent cmsid sys) (hcms : Plain cmsid') (hpid : Plain pid)
    (hstep : AdapterServer.delCamera sys userid cmsid' pid false env = some (after, out)) :
    Coherent cmsid after := by
  unfold AdapterServer.delCamera at hstep
  rw [if_neg Bool.false_ne_true] at hstep
  split at hstep
  · cases hstep
    exact h
  · obtain ⟨ret, s, hrun, hresult⟩ := request_cases (fun ret => cameraReply ret (AdapterServer.delDesc ret))
      (fun sys => AdapterServer.delFromClient sys cmsid' pid env) hstep
    rcases Db.delDevice_run hrun with ⟨hret, hdb⟩ | ⟨hret, hdb⟩
    · exact h.of_failed hresult hret hdb
    · obtain ⟨-, sent, hclient⟩ := hresult.resolve_left fun hfailed => hfailed.1 hret
      rw [hdb] at hclient
      obtain ⟨htidy, htable⟩ := delete_table h.tidy hpid hcms
      obtain ⟨hnone, hsome⟩ := h.follow cmsid' htidy fun hne other => by
        rw [htable, if_neg fun heq => hne heq.1.symm]
      unfold AdapterServer.delFromClient at hclient
      cases hp : sys.srv.getClient cmsid' with
      | none =>
          simp only [adapterStep, hp, Option.map_some, Option.some.injEq, Prod.mk.injEq] at hclient
          obtain ⟨rfl, -⟩ := hclient
          exact hnone hp
      | some p =>
          simp only [adapterStep, hp] at hclient
          split at hclient
          · -- a camera that memory does not know is not in the table either
            rename_i hunknown
            cases hclient
            rw [← setDevlist_self hp]
            refine hsome p p.devlist hp fun heq hagree other => ?_
            rw [htable, hagree]
            split
            · rename_i hkey
              rw [← hagree, hkey.2, memorySchedule, Option.isNone_iff_eq_none.mp hunknown]
              rfl
            · rfl
          · simp only [Option.map_some, Option.some.injEq, Prod.mk.injEq] at hclient
            obtain ⟨rfl, -⟩ := hclient
            refine Coherent.notifyChange hp (hsome p _ hp fun heq hagree other => ?_) 0 pid env.draws
              env.sent
            rw [memorySchedule_delCamera, htable, hagree]
            simp [heq]

theorem Coherent.modifyCamera (h : Coherent cmsid sys) (hcms : Plain cmsid') (hpid : Plain pid)
    (h0 : Plain sec0) (h1 : Plain sec1)
    (hstep : AdapterServer.modifyCamera mktime sys userid cmsid' pid name allday sec0 sec1 false env =
      some (after, out)) : Coherent cmsid after := by
  unfold AdapterServer.modifyCamera at hstep
  rw [if_neg Bool.false_ne_true] at hstep
  split at hstep
  · cases hstep
    exact h
  · obtain ⟨ret, s, hrun, hresult⟩ := request_cases (fun ret => cameraReply ret (AdapterServer.modifyDesc ret))
      (fun sys => AdapterServer.modifyOnClient mktime sys cmsid' pid allday sec0 sec1) hstep
    rcases Db.modDevice_run hrun with ⟨hret, hdb⟩ | ⟨hret, iSize, w, hschedule, hvalid, hdb⟩
    · exact h.of_failed hresult hret hdb
    · obtain ⟨-, sent, hclient⟩ := hresult.resolve_left fun hfailed => hfailed.1 hret
      rw [hdb] at hclient
      have hw := schedule_stored hschedule hvalid h0 h1
      obtain ⟨htidy, htable⟩ := update_table
        { pid, groupid := cmsid', name, allday, time_sec0 := sec0, time_sec1 := sec1 } h.tidy hw hpid
        hcms env.strtime
      obtain ⟨hnone, hsome⟩ := h.follow cmsid' htidy fun hne other => by
        rw [htable, if_neg fun heq => hne heq.1.symm]
      rcases toClient_cases (requestWindows_of_schedule hschedule) hclient with
        ⟨hoffline, rfl⟩ | ⟨p, result, hp, hmodified, rfl⟩
      · exact hnone hoffline
      · simp only [adapterStep, show sys.srv.getClient cmsid' = some p from hp, Option.some.injEq] at hmodified
        subst hmodified
        refine hsome p _ hp fun heq hagree other => ?_
        rw [memorySchedule_modifyCamera, htable, hagree]
        simp [heq]

theorem Coherent.step (h : Coherent cmsid sys) {event : CameraRequest × CameraEnv}
    (hplain : ∀ s ∈ event.1.strings, Plain s) (hstep : cameraStep mktime sys event = some (after, out)) :
    Coherent cmsid after := by
  obtain ⟨request, env⟩ := event
  cases request with
  | add userid cmsid' pid name allday sec0 sec1 =>
      simp only [CameraRequest.strings, List.forall_mem_cons] at hplain
      obtain ⟨-, hcms, hpid, -, h0, h1, -⟩ := hplain
      exact h.addCamera hcms hpid h0 h1 hstep
  | del userid cmsid' pid =>
      simp only [CameraRequest.strings, List.forall_mem_cons] at hplain
      obtain ⟨-, hcms, hpid, -⟩ := hplain
      exact h.delCamera hcms hpid hstep
  | modify userid cmsid' pid name allday sec0 sec1 =>
      simp only [CameraRequest.strings, List.forall_mem_cons] at hplain
      obtain ⟨-, hcms, hpid, -, h0, h1, -⟩ := hplain
      exact h.modifyCamera hcms hpid h0 h1 hstep

end Requests

-- A database whose rows of an adapter were all written by `add_device` and `mod_device`.
inductive Written (mktime : Tm → Int) (cmsid : String) : Database → Prop where
  | none {db : Database} : ownRows cmsid (db.rows .cam) = [] → Written mktime cmsid db
  | add {db : Database} {info : TBDevice} {strtime : String} {luck : List Bool} {ret : Int} {s : Session} :
      Written mktime cmsid db → Plain info.pid → Plain info.groupid → Plain info.time_sec0 →
      Plain info.time_sec1 →
      DbProg.run (Db.addDevice mktime info strtime) { db, luck } = some (ret, s) →
      Written mktime cmsid s.db
  | modify {db : Database} {info : TBDevice} {curtime : String} {luck : List Bool} {ret : Int}
      {s : Session} : Written mktime cmsid db → Plain info.pid → Plain info.groupid →
      Plain info.time_sec0 → Plain info.time_sec1 →
      DbProg.run (Db.modDevice mktime info curtime) { db, luck } = some (ret, s) →
      Written mktime cmsid s.db
  | del {db : Database} {groupid pid : String} {luck : List Bool} {ret : Int} {s : Session} :
      Written mktime cmsid db → Plain groupid → Plain pid →
      DbProg.run (Db.delDevice groupid pid) { db, luck } = some (ret, s) → Written mktime cmsid s.db

theorem Written.tidy {mktime : Tm → Int} {cmsid : String} {db : Database} (h : Written mktime cmsid db) :
    Tidy cmsid (db.rows .cam) := by
  induction h with
  | none hnone => exact ⟨by simp [hnone], by simp [hnone]⟩
  | @add db info strtime luck ret s _ hpid hcms h0 h1 hrun ih =>
      rcases Db.addDevice_run hrun with
        ⟨-, hdb⟩ | ⟨-, iSize, w, strkid, strcustomerid, hschedule, hvalid, hfree, hdb⟩
      · rw [hdb]
        exact ih
      · rw [hdb]
        have hw := schedule_stored hschedule hvalid h0 h1
        exact (insert_table info ih hw hpid hcms hfree strtime strkid strcustomerid).1
  | @modify db info curtime luck ret s _ hpid hcms h0 h1 hrun ih =>
      rcases Db.modDevice_run hrun with ⟨-, hdb⟩ | ⟨-, iSize, w, hschedule, hvalid, hdb⟩
      · rw [hdb]
        exact ih
      · rw [hdb]
        have hw := schedule_stored hschedule hvalid h0 h1
        exact (update_table info ih hw hpid hcms curtime).1
  | @del db groupid pid luck ret s _ hcms hpid hrun ih =>
      rcases Db.delDevice_run hrun with ⟨-, hdb⟩ | ⟨-, hdb⟩
      · rw [hdb]
        exact ih
      · rw [hdb]
        exact (delete_table ih hpid hcms).1

-- What the camera query of a login can come to on this database.
def outcomeOf (db : Database) (cmsid : String) (cam : QueryResult) : Prop :=
  cam = .failed ∨ cam = .noResult ∨ cam = .rows (db.result (.select .cam [("cmsid", cstr cmsid)]))

-- A server in which the account has just logged in: it was not there before, the answer went
-- out, and `cam` is the outcome of the camera query.
def JustLoggedIn (cmsid : String) (cam : QueryResult) (srv : TcpServer) : Prop :=
  ∃ before fd seq buf env, (ReqLogin.decode buf).cmsid = cmsid ∧ before.getClient cmsid = none ∧
    LoginEnv.checkLogin env (ReqLogin.decode buf) = 0 ∧ env.cam = cam ∧ env.sent = true ∧
    srv = (handleLoginEx before fd seq buf (env.frameEnv (ReqLogin.decode buf))).1

theorem JustLoggedIn.client {cmsid : String} {cam : QueryResult} {srv : TcpServer}
    (h : JustLoggedIn cmsid cam srv) {rows : List TBDeviceEx}
    (hrows : DBHelper.getGroupInfoEx cam = some rows) :
    (srv.clientlist.map (·.cmsid)).count cmsid = 1 ∧
      ∃ client, srv.getClient cmsid = some client ∧ client.devlist = loadRows rows ∧
        ∀ other ∈ srv.clientlist, other.cmsid = cmsid → other = client := by
  obtain ⟨before, fd, seq, buf, env, rfl, hnew, hok, rfl, hsent, rfl⟩ := h
  have hfree : ∀ p ∈ before.clientlist, p.cmsid ≠ (ReqLogin.decode buf).cmsid := by
    intro p hp he
    exact List.find?_eq_none.mp hnew p hp (decide_eq_true he)
  have hcount : (before.clientlist.map (·.cmsid)).count (ReqLogin.decode buf).cmsid = 0 := by
    rw [List.count_eq_zero]
    intro hmem
    obtain ⟨p, hp, he⟩ := List.mem_map.mp hmem
    exact hfree p hp he
  have hsrv : (handleLoginEx before fd seq buf (env.frameEnv (ReqLogin.decode buf))).1 =
      before.addClient
        { fd := fd, cmsid := (ReqLogin.decode buf).cmsid, livecount := env.tick, devlist := loadRows rows,
          msglist := [] } := by
    simp [handleLoginEx, loginCheck, hnew, LoginEnv.frameEnv, hok, hrows, hsent]
  have hnone : before.clientlist.find? (fun p => decide (p.cmsid = (ReqLogin.decode buf).cmsid)) = none :=
    hnew
  rw [hsrv]
  refine ⟨by simp [TcpServer.addClient, hcount],
    ⟨fd, (ReqLogin.decode buf).cmsid, env.tick, loadRows rows, []⟩, ?_, rfl, ?_⟩
  · simp [TcpServer.getClient, TcpServer.addClient, hnone]
  · intro other hother he
    rcases List.mem_append.mp hother with hother | hother
    · exact absurd he (hfree other hother)
    · exact List.mem_singleton.mp hother

def Few (cmsid : String) (db : Database) : Prop :=
  (ownRows cmsid (db.rows .cam)).length ≤ MAX_DEVICE_NUM_PER_ADAPTER

instance (cmsid : String) (db : Database) : Decidable (Few cmsid db) :=
  inferInstanceAs (Decidable ((ownRows cmsid (db.rows .cam)).length ≤ MAX_DEVICE_NUM_PER_ADAPTER))

-- The requests of the runs below: plain arguments, and never more rows than an adapter may have.
def plainRequest (cmsid : String)
    (_ : List ((CameraRequest × CameraEnv) × (Option Reply × List Sent))) (sys : System)
    (event : CameraRequest × CameraEnv) : Prop :=
  (∀ s ∈ event.1.strings, Plain s) ∧ Few cmsid sys.db

instance (cmsid : String) (history : List ((CameraRequest × CameraEnv) × (Option Reply × List Sent)))
    (sys : System) (event : CameraRequest × CameraEnv) : Decidable (plainRequest cmsid history sys event) :=
  inferInstanceAs (Decidable ((∀ s ∈ event.1.strings, Plain s) ∧ Few cmsid sys.db))

-- The registered client has the schedules that a fresh login would load.
def LikeFresh (cmsid : String) (sys : System) : Prop :=
  ∀ client, sys.srv.getClient cmsid = some client →
    ∀ rows s, DbProg.run (Db.getGroupInfoEx cmsid) { db := sys.db, luck := [] } = some (some rows, s) →
      ∀ pid, memorySchedule client.devlist pid = memorySchedule (loadRows rows) pid

theorem Coherent.likeFresh {cmsid : String} (hplain : Plain cmsid) {sys : System}
    (h : Coherent cmsid sys) (hfew : Few cmsid sys.db) : LikeFresh cmsid sys := by
  intro client hclient rows s hrun pid
  obtain ⟨s', hrun'⟩ := Db.getGroupInfoEx_run sys.db cmsid
  rw [hrun'] at hrun
  cases hrun
  have hmem := List.mem_of_find?_eq_some hclient
  have hfound := List.find?_some hclient
  have hcms : client.cmsid = cmsid := of_decide_eq_true hfound
  rw [h.agree client hmem hcms pid]
  exact (freshLoad_effective hplain h.tidy hfew pid).symm

theorem coherent_loggedIn {mktime : Tm → Int} {cmsid : String} (hplain : Plain cmsid) {db : Database}
    (hwritten : Written mktime cmsid db) (hfew : Few cmsid db) {cam : QueryResult} {srv : TcpServer}
    (hlogin : JustLoggedIn cmsid cam srv) (houtcome : outcomeOf db cmsid cam)
    (hloaded : (∃ rows, cam = .rows rows) ∨ ownRows cmsid (db.rows .cam) = []) :
    Coherent cmsid { srv, db } := by
  -- a failed query loads nothing, which is right for an adapter without rows
  have hrows : ∃ rows, DBHelper.getGroupInfoEx cam = some rows ∧
      ∀ pid, memorySchedule (loadRows rows) pid = tableSchedule (db.rows .cam) cmsid pid := by
    have hnothing : ownRows cmsid (db.rows .cam) = [] →
        ∀ pid, memorySchedule (loadRows []) pid = tableSchedule (db.rows .cam) cmsid pid := by
      intro hempty pid
      simp [memorySchedule, loadRows, tableSchedule, hempty]
    rcases houtcome with rfl | rfl | rfl
    · refine ⟨[], rfl, hnothing (hloaded.resolve_left ?_)⟩
      rintro ⟨rows, hrows⟩
      cases hrows
    · refine ⟨[], rfl, hnothing (hloaded.resolve_left ?_)⟩
      rintro ⟨rows, hrows⟩
      cases hrows
    · exact ⟨_, rfl, fun pid => freshLoad_effective hplain hwritten.tidy hfew pid⟩
  obtain ⟨rows, hrows, hagree⟩ := hrows
  obtain ⟨hcount, client, -, hdevlist, honly⟩ := hlogin.client hrows
  refine ⟨hwritten.tidy, hcount.le, fun other hother he pid => ?_⟩
  rw [honly other hother he, hdevlist, hagree]

-- Memory and database stay coherent along every run of requests exactly when the camera query
-- of the login went well, or there was nothing to load.
theorem memory_coherent_iff (mktime : Tm → Int) (cmsid : String) (hplain : Plain cmsid) (db : Database)
    (hwritten : Written mktime cmsid db) (hfew : Few cmsid db) (cam : QueryResult) (srv : TcpServer)
    (hlogin : JustLoggedIn cmsid cam srv) (houtcome : outcomeOf db cmsid cam) :
    (∀ history sys, Run (cameraStep mktime) (plainRequest cmsid) { srv, db } history sys →
      Few cmsid sys.db → LikeFresh cmsid sys) ↔
      (∃ rows, cam = .rows rows) ∨ ownRows cmsid (db.rows .cam) = [] := by
  constructor
  · intro hall
    by_contra hbad
    obtain ⟨hfailed, hsome⟩ := not_or.mp hbad
    have hnone : DBHelper.getGroupInfoEx cam = some [] := by
      rcases houtcome with rfl | rfl | rfl
      · rfl
      · rfl
      · exact absurd ⟨_, rfl⟩ hfailed
    obtain ⟨-, client, hclient, hdevlist, -⟩ := hlogin.client hnone
    obtain ⟨record, hrecord⟩ := List.exists_mem_of_ne_nil _ hsome
    obtain ⟨pid, hpid⟩ := Option.isSome_iff_exists.mp (hwritten.tidy.good record hrecord).pid
    obtain ⟨s, hrun⟩ := Db.getGroupInfoEx_run db cmsid
    have hsame := hall [] { srv, db } .init hfew client hclient _ _ hrun pid
    rw [hdevlist, show memorySchedule (loadRows []) pid = none by simp [memorySchedule, loadRows]] at hsame
    have htable := hsame.trans (freshLoad_effective hplain hwritten.tidy hfew pid)
    have hmiss := Option.map_eq_none_iff.mp htable.symm
    exact List.find?_eq_none.mp hmiss record hrecord (decide_eq_true hpid)
  · intro hloaded history sys run hend
    have hcoherent : Coherent cmsid sys := by
      refine run.invariant (fun _ sys => Coherent cmsid sys) ?_ ?_
      · exact coherent_loggedIn hplain hwritten hfew hlogin houtcome hloaded
      · intro _ before event after out hbefore hguard hstep
        exact hbefore.step hguard.1 hstep
    exact hcoherent.likeFresh hplain hend

-- One adapter "c" that belongs to user 1, and no camera.
def oneAdapter : Database where
  rows := fun table =>
    if table = .ada then [assign [("cmsid", .text "c"), ("user", .int 1), ("customer_id", .int 2)] (blank 1)]
    else []
  nextId := 1

def adapterRow : QueryResult := .rows [fun i => if i = 1 then some "pw" else if i = 5 then some "1" else none]

def adapterLogin (cam : QueryResult) : LoginEnv := { tick := 0, ada := adapterRow, cam, sent := true }

-- The server after the login of "c" on an empty server.
def afterLogin (cam : QueryResult) : TcpServer :=
  (handleLoginEx ⟨[]⟩ 5 1 (ReqLogin.encode ⟨"c", "pw"⟩)
    ((adapterLogin cam).frameEnv (ReqLogin.decode (ReqLogin.encode ⟨"c", "pw"⟩)))).1

theorem justLoggedIn_afterLogin (cam : QueryResult) : JustLoggedIn "c" cam (afterLogin cam) := by
  have hcms : (ReqLogin.decode (ReqLogin.encode ⟨"c", "pw"⟩)).cmsid = "c" := by decide +kernel
  have hok : (DBHelper.checkLogin adapterRow (ReqLogin.decode (ReqLogin.encode ⟨"c", "pw"⟩)).password).1 = 0 := by
    decide +kernel
  exact ⟨⟨[]⟩, 5, 1, ReqLogin.encode ⟨"c", "pw"⟩, adapterLogin cam, hcms, rfl, hok, rfl, rfl, rfl⟩

def smoothEnv : CameraEnv := { luck := [], strtime := "2018-01-01 00:00:00", draws := fun _ => 0, sent := true }

def cameraRequests : List (CameraRequest × CameraEnv) :=
  [(.add "1" "c" "p" "n" 1 "" "", smoothEnv),
    (.modify "1" "c" "p" "n" 0 "080000-120000" "133000-170000", smoothEnv)]

-- After a camera was added and given two windows, a fresh login would load the two windows.
theorem memory_coherent_two_windows : ∃ (sys : System) (client : CMSClient) (rows : List TBDeviceEx)
    (s : Session), sys.srv.getClient "c" = some client ∧
    DbProg.run (Db.getGroupInfoEx "c") { db := sys.db, luck := [] } = some (some rows, s) ∧
    memorySchedule client.devlist "p" = some (some workingHours) ∧
    memorySchedule (loadRows rows) "p" = some (some workingHours) := by
  obtain ⟨history, sys, run, htest⟩ := exists_run_of_ends (cameraStep fun tm => tm.seconds)
    (plainRequest "c") { srv := afterLogin (.rows []), db := oneAdapter } cameraRequests
    (fun _ sys => (sys.srv.getClient "c").any fun client =>
      decide (memorySchedule client.devlist "p" = some (some workingHours) ∧ Few "c" sys.db))
    (guarded_of_passes (fun history sys event => decide (plainRequest "c" history sys event))
      (fun _ _ _ h => of_decide_eq_true h) (by decide +kernel))
    (by decide +kernel)
  obtain ⟨client, hclient, hmemory⟩ := (Option.any_eq_true _ _).mp htest
  obtain ⟨hwindows, hfew⟩ := of_decide_eq_true hmemory
  obtain ⟨s, hrun⟩ := Db.getGroupInfoEx_run sys.db "c"
  have hcoherent := memory_coherent_iff (fun tm => tm.seconds) "c" (by decide) oneAdapter (.none rfl)
    (by decide +kernel) (.rows []) _ (justLoggedIn_afterLogin _) (.inr (.inr rfl))
  have hsame := hcoherent.mpr (.inl ⟨_, rfl⟩) history sys run hfew client hclient _ _ hrun "p"
  exact ⟨sys, client, _, s, hclient, hrun, hwindows, hsame ▸ hwindows⟩

def allDayCamera : TBDevice :=
  { pid := "p", groupid := "c", name := "n", allday := 1, time_sec0 := "", time_sec1 := "" }

-- The database after `add_device` has stored a camera of "c".
def storedCamera : Database :=
  oneAdapter.apply (.insert .cam (Db.newRow allDayCamera 0 {} "2018-01-01 00:00:00" "1" "2"))

-- The camera query of the login fails, the login succeeds all the same, and the registered
-- client does not have the camera.
theorem memory_not_coherent : ∃ srv client rows s, Written (fun tm => tm.seconds) "c" storedCamera ∧
    Few "c" storedCamera ∧ JustLoggedIn "c" .failed srv ∧ srv.getClient "c" = some client ∧
    DbProg.run (Db.getGroupInfoEx "c") { db := storedCamera, luck := [] } = some (some rows, s) ∧
    memorySchedule client.devlist "p" = none ∧ memorySchedule (loadRows rows) "p" = some none := by
  have hempty : Written (fun tm => tm.seconds) "c" oneAdapter := .none rfl
  have hplain : Plain "p" ∧ Plain "c" ∧ Plain "" := by decide
  obtain ⟨hp, hc, he⟩ := hplain
  have hrow : ∃ s, DbProg.run (Db.addDevice (fun tm => tm.seconds) allDayCamera "2018-01-01 00:00:00")
      { db := oneAdapter, luck := [] } = some (0, s) ∧ s.db = storedCamera := ⟨_, rfl, rfl⟩
  obtain ⟨added, hadded, hdb⟩ := hrow
  have hwritten : Written (fun tm => tm.seconds) "c" storedCamera := hdb ▸ hempty.add hp hc he he hadded
  obtain ⟨s, hrun⟩ := Db.getGroupInfoEx_run storedCamera "c"
  obtain ⟨-, client, hclient, hdevlist, -⟩ := (justLoggedIn_afterLogin .failed).client rfl
  have hfew : Few "c" storedCamera := by decide +kernel
  refine ⟨_, client, _, s, hwritten, hfew, justLoggedIn_afterLogin .failed, hclient, hrun, ?_, ?_⟩
  · rw [hdevlist]
    simp [memorySchedule, loadRows]
  · exact (freshLoad_effective (by decide) hwritten.tidy hfew "p").trans (by decide +kernel)

end VideoAdapter.Adapter

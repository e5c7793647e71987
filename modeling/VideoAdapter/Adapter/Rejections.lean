import VideoAdapter.Adapter.Cameras
import VideoAdapter.Adapter.Sections

namespace VideoAdapter.Adapter

open Lib

-- The devices of a client and the windows of each.
def windowTable (devlist : DevList) (pid : String) : Option Windows := devlist[pid]?.map (·.windows)

def TcpServer.windowTables (srv : TcpServer) : List (Int × String × (String → Option Windows)) :=
  srv.clientlist.map fun client => (client.fd, client.cmsid, windowTable client.devlist)

-- No device is added and no windows are changed: every client that is left has its table.
def SameWindows (srv srv' : TcpServer) : Prop := srv'.windowTables.Sublist srv.windowTables

theorem windowTable_addCamera_iff {devlist : DevList} {pid name : String} :
    windowTable (addCamera devlist pid name 0 "" "" "" "") = windowTable devlist ↔
      windowTable devlist pid = some {} := by
  have hinsert (pid' : String) : windowTable (addCamera devlist pid name 0 "" "" "" "") pid' =
      if pid' = pid then some {} else windowTable devlist pid' := by
    unfold windowTable addCamera
    rw [Std.ExtTreeMap.getElem?_insert]
    by_cases hpid : pid = pid'
    · subst hpid
      simp [newCamera, DeviceNode.windows]
    · simp [hpid, Ne.symm hpid]
  constructor
  · intro h
    rw [← h, hinsert, if_pos rfl]
  · intro h
    funext pid'
    rw [hinsert]
    split
    · rename_i hpid
      rw [hpid, h]
    · rfl

theorem windowTable_modifyCamera_iff {devlist : DevList} {pid : String} :
    windowTable (modifyCamera devlist pid 0 "" "" "" "") = windowTable devlist ↔
      ∀ w, windowTable devlist pid = some w → w = {} := by
  have hmodify (pid' : String) : windowTable (modifyCamera devlist pid 0 "" "" "" "") pid' =
      if pid' = pid then (windowTable devlist pid).map fun _ => {} else windowTable devlist pid' := by
    unfold windowTable modifyCamera
    rw [Std.ExtTreeMap.getElem?_modify]
    by_cases hpid : pid = pid'
    · subst hpid
      cases devlist[pid]? with
      | none => simp
      | some p => simp [DeviceNode.windows]
    · simp [hpid, Ne.symm hpid]
  constructor
  · intro h w hw
    have hpid := congrFun h pid
    rw [hmodify, if_pos rfl, hw] at hpid
    exact (Option.some.inj hpid).symm
  · intro h
    funext pid'
    rw [hmodify]
    split
    · rename_i hpid
      subst hpid
      cases hw : windowTable devlist pid' with
      | none => rfl
      | some w => rw [h w hw, Option.map_some]
    · rfl

section Clients

variable {srv : TcpServer} {cmsid : String} {p : CMSClient}

-- Writing to the client that is found is seen exactly where its own table changes.
theorem sameWindows_setDevlist_iff (hp : srv.getClient cmsid = some p) {devlist : DevList} :
    SameWindows srv (srv.setDevlist cmsid devlist) ↔ windowTable devlist = windowTable p.devlist := by
  have hwritten {β : Type} (g : CMSClient → β) :
      (srv.setDevlist cmsid devlist).clientlist.map g = srv.clientlist.map g ↔
        g { p with devlist } = g p :=
    map_updateFirst_eq_iff g hp rfl
  have hlen : (srv.setDevlist cmsid devlist).windowTables.length = srv.windowTables.length := by
    simpa [TcpServer.windowTables] using congrArg List.length ((hwritten fun _ => ()).mpr rfl)
  have htables : (srv.setDevlist cmsid devlist).windowTables = srv.windowTables ↔
      windowTable devlist = windowTable p.devlist := by
    rw [TcpServer.windowTables, TcpServer.windowTables, hwritten]
    simp
  rw [← htables]
  constructor
  · intro h
    exact List.Sublist.eq_of_length h hlen
  · intro h
    rw [SameWindows, h]

theorem sameWindows_delClient (srv : TcpServer) (fd : Int) : SameWindows srv (srv.delClient fd) :=
  map_updateFirst_sublist (fun _ _ h => by cases h) srv.clientlist

-- The frame about a change may or may not go out.
theorem sameWindows_notifyChange_iff (hp : srv.getClient cmsid = some p) {devlist : DevList} {type : Int}
    {pid : String} {draws : Nat → Nat} :
    (∀ sent, SameWindows srv (srv.notifyChange p devlist type pid draws sent).1) ↔
      windowTable devlist = windowTable p.devlist := by
  have hcms : p.cmsid = cmsid := by simpa using List.find?_some hp
  rw [← sameWindows_setDevlist_iff hp]
  constructor
  · intro h
    have hsent := h true
    rwa [TcpServer.notifyChange, if_pos rfl, hcms] at hsent
  · intro h sent
    unfold TcpServer.notifyChange
    rw [hcms]
    cases sent with
    | true => exact h
    | false => exact List.Sublist.trans (sameWindows_delClient _ _) h

end Clients

section Requests

variable {mktime : Tm → Int} {sec0 sec1 : String}

theorem colons_ne_empty (cs : List Char) : colons cs ≠ "" := by
  intro h
  have hlist := congrArg String.toList h
  simp [colons] at hlist

-- The reference arguments are kept exactly when it is the first section that is refused.
theorem parseTimeSection_keeps_iff {w' : Windows}
    (h : parseTimeSection mktime sec0 sec1 {} = some (-1, w')) :
    (∀ w, parseTimeSection mktime sec0 sec1 w = some (-1, w)) ↔ ¬ InOrder mktime sec0 := by
  obtain ⟨hcut0, hcases⟩ := parseTimeSection_cases h
  constructor
  · intro hkeeps
    rw [hkeeps {}] at h
    cases h
    rcases hcases with ⟨hnot, -⟩ | ⟨-, ⟨-, -, hw⟩ | ⟨-, -, ⟨-, -, hw⟩ | ⟨-, hw, -⟩⟩⟩
    · exact hnot
    all_goals exact absurd (congrArg Windows.s0 hw).symm (colons_ne_empty _)
  · intro hnot w
    rw [parseTimeSection, parseSection_of_cuttable hcut0, if_neg hnot]

variable (sys : System) (userid cmsid pid name : String)

theorem addCamera_web_sameWindows_iff (h : parseTimeSection mktime sec0 sec1 {} = some (-1, {})) :
    (∀ env out, AdapterServer.addCamera mktime sys userid cmsid pid name 0 sec0 sec1 true env = some out →
      SameWindows sys.srv out.1.srv) ↔
    ∀ p, sys.srv.getClient cmsid = some p → windowTable p.devlist pid = some {} := by
  cases hclient : sys.srv.getClient cmsid with
  | none =>
      refine iff_of_true (fun env out hout => ?_) (fun p hp => by cases hp)
      simp only [AdapterServer.addCamera, AdapterServer.addToClient, hclient, if_true, Option.isNone_none,
        Option.map_some, Option.some.injEq] at hout
      subst hout
      exact List.Sublist.refl _
  | some p =>
      have hcall (env : CameraEnv) :
          AdapterServer.addCamera mktime sys userid cmsid pid name 0 sec0 sec1 true env =
            some ({ sys with srv := (sys.srv.notifyChange p
                (addCamera p.devlist pid name 0 "" "" "" "") 1 pid env.draws env.sent).1 }, none,
              (sys.srv.notifyChange p (addCamera p.devlist pid name 0 "" "" "" "") 1 pid env.draws
                env.sent).2) := by
        simp [AdapterServer.addCamera, AdapterServer.addToClient, hclient, requestWindows, h, adapterStep]
      have hiff := fun draws =>
        @sameWindows_notifyChange_iff sys.srv cmsid p hclient (addCamera p.devlist pid name 0 "" "" "" "")
          1 pid draws
      simp only [Option.some.injEq, forall_eq']
      rw [← windowTable_addCamera_iff, ← hiff fun _ => 0]
      constructor
      · intro hall sent
        exact hall ⟨[], "", fun _ => 0, sent⟩ _ (hcall _)
      · intro hall env out hout
        rw [hcall env] at hout
        cases hout
        exact (hiff env.draws).mpr ((hiff fun _ => 0).mp hall) env.sent

theorem modifyCamera_web_sameWindows_iff (h : parseTimeSection mktime sec0 sec1 {} = some (-1, {})) :
    (∀ env out, AdapterServer.modifyCamera mktime sys userid cmsid pid name 0 sec0 sec1 true env =
      some out → SameWindows sys.srv out.1.srv) ↔
    ∀ p, sys.srv.getClient cmsid = some p → ∀ w, windowTable p.devlist pid = some w → w = {} := by
  cases hclient : sys.srv.getClient cmsid with
  | none =>
      refine iff_of_true (fun env out hout => ?_) (fun p hp => by cases hp)
      simp only [AdapterServer.modifyCamera, AdapterServer.modifyOnClient, hclient, if_true,
        Option.isNone_none, Option.map_some, Option.some.injEq] at hout
      subst hout
      exact List.Sublist.refl _
  | some p =>
      have hcall (env : CameraEnv) :
          AdapterServer.modifyCamera mktime sys userid cmsid pid name 0 sec0 sec1 true env =
            some ({ sys with srv := sys.srv.setDevlist cmsid (modifyCamera p.devlist pid 0 "" "" "" "") },
              none, []) := by
        simp [AdapterServer.modifyCamera, AdapterServer.modifyOnClient, hclient, requestWindows, h,
          adapterStep]
      simp only [Option.some.injEq, forall_eq']
      rw [← windowTable_modifyCamera_iff, ← sameWindows_setDevlist_iff hclient]
      constructor
      · intro hall
        exact hall ⟨[], "", fun _ => 0, true⟩ _ (hcall _)
      · intro hall env out hout
        rw [hcall env] at hout
        cases hout
        exact hall

-- The record that both requests make of their parameters.
def refusedDevice (cmsid pid name sec0 sec1 : String) : TBDevice :=
  { pid, groupid := cmsid, name, allday := 0, time_sec0 := sec0, time_sec1 := sec1 }

-- The path over the database asks the parser first and stops there.
theorem addCamera_client_sameWindows {w' : Windows}
    (h : parseTimeSection mktime sec0 sec1 {} = some (-1, w')) {env : CameraEnv}
    {out : System × Option Reply × List Sent}
    (hout : AdapterServer.addCamera mktime sys userid cmsid pid name 0 sec0 sec1 false env = some out) :
    SameWindows sys.srv out.1.srv := by
  rw [AdapterServer.addCamera, if_neg Bool.false_ne_true] at hout
  split at hout
  · cases hout
    exact List.Sublist.refl _
  · have hrun (s : Session) (strtime : String) :
        DbProg.run (Db.addDevice mktime (refusedDevice cmsid pid name sec0 sec1) strtime) s =
          some (2, s) := by
      simp only [Db.addDevice, Db.schedule, refusedDevice, if_true, h]
      rfl
    dsimp only at hout
    rw [← refusedDevice, hrun, Option.bind_some, if_neg (by dsimp only; omega)] at hout
    cases hout
    exact List.Sublist.refl _

theorem modifyCamera_client_sameWindows {w' : Windows}
    (h : parseTimeSection mktime sec0 sec1 {} = some (-1, w')) {env : CameraEnv}
    {out : System × Option Reply × List Sent}
    (hout : AdapterServer.modifyCamera mktime sys userid cmsid pid name 0 sec0 sec1 false env = some out) :
    SameWindows sys.srv out.1.srv := by
  rw [AdapterServer.modifyCamera, if_neg Bool.false_ne_true] at hout
  split at hout
  · cases hout
    exact List.Sublist.refl _
  · have hrun (s : Session) (strtime : String) :
        DbProg.run (Db.modDevice mktime (refusedDevice cmsid pid name sec0 sec1) strtime) s =
          some (3, s) := by
      simp only [Db.modDevice, Db.schedule, refusedDevice, if_true, h]
      rfl
    dsimp only at hout
    rw [← refusedDevice, hrun, Option.bind_some, if_neg (by dsimp only; omega)] at hout
    cases hout
    exact List.Sublist.refl _

-- What the refusal of a schedule promises: the reference arguments are kept and the request does
-- not touch the devices of any client, whatever the world contributes to it.
def RefusedWithoutEffect (mktime : Tm → Int) (sec0 sec1 : String) (srv : TcpServer)
    (request : CameraEnv → Option (System × Option Reply × List Sent)) : Prop :=
  (∀ w, parseTimeSection mktime sec0 sec1 w = some (-1, w)) ∧
    ∀ env out, request env = some out → SameWindows srv out.1.srv

-- The second section may be refused after the first was stored, and the web path goes on with
-- what the parser left.
theorem rejected_schedule_iff (mktime : Tm → Int) (sec0 sec1 : String) (w' : Windows)
    (h : parseTimeSection mktime sec0 sec1 {} = some (-1, w')) (sys : System)
    (userid cmsid pid name : String) (fromweb : Bool) :
    (RefusedWithoutEffect mktime sec0 sec1 sys.srv
        (AdapterServer.addCamera mktime sys userid cmsid pid name 0 sec0 sec1 fromweb) ↔
      ¬ InOrder mktime sec0 ∧ (fromweb = true → ∀ p, sys.srv.getClient cmsid = some p →
        windowTable p.devlist pid = some {})) ∧
    (RefusedWithoutEffect mktime sec0 sec1 sys.srv
        (AdapterServer.modifyCamera mktime sys userid cmsid pid name 0 sec0 sec1 fromweb) ↔
      ¬ InOrder mktime sec0 ∧ (fromweb = true → ∀ p, sys.srv.getClient cmsid = some p →
        ∀ w, windowTable p.devlist pid = some w → w = {})) := by
  unfold RefusedWithoutEffect
  rw [parseTimeSection_keeps_iff h, and_congr_right_iff, and_congr_right_iff]
  refine ⟨fun hnot => ?_, fun hnot => ?_⟩
  · cases fromweb with
    | false =>
        exact iff_of_true
          (fun env out hout => addCamera_client_sameWindows sys userid cmsid pid name h hout)
          (fun hweb => absurd hweb Bool.false_ne_true)
    | true =>
        have hempty := (parseTimeSection_keeps_iff h).mpr hnot {}
        rw [addCamera_web_sameWindows_iff sys userid cmsid pid name hempty]
        simp
  · cases fromweb with
    | false =>
        exact iff_of_true
          (fun env out hout => modifyCamera_client_sameWindows sys userid cmsid pid name h hout)
          (fun hweb => absurd hweb Bool.false_ne_true)
    | true =>
        have hempty := (parseTimeSection_keeps_iff h).mpr hnot {}
        rw [modifyCamera_web_sameWindows_iff sys userid cmsid pid name hempty]
        simp

end Requests

def registeredClient : System where
  srv := ⟨[{ fd := 5, cmsid := "c", livecount := 0, devlist := ∅, msglist := [] }]⟩
  db := { rows := fun _ => [], nextId := 1 }

-- A change of a device that the client does not have.
theorem rejected_schedule_unknown_device :
    RefusedWithoutEffect (fun tm => tm.seconds) "later" "" registeredClient.srv
      (AdapterServer.modifyCamera (fun tm => tm.seconds) registeredClient "" "c" "p" "n" 0 "later" ""
        true) := by
  refine (rejected_schedule_iff (fun tm => tm.seconds) "later" "" {} (by decide +kernel) registeredClient
    "" "c" "p" "n" true).2.mpr ⟨by decide +kernel, ?_⟩
  rintro - p hp w hw
  cases hp
  simp [windowTable] at hw

-- A camera is added without windows, and half of a schedule is stored.
theorem rejected_schedule_adds_device :
    parseTimeSection (fun tm => tm.seconds) "later" "" {} = some (-1, {}) ∧
      (¬ ∀ env out, AdapterServer.addCamera (fun tm => tm.seconds) registeredClient "" "c" "p" "n" 0
        "later" "" true env = some out → SameWindows registeredClient.srv out.1.srv) ∧
      parseTimeSection (fun tm => tm.seconds) "080000-120000" "later" {} =
        some (-1, { s0 := "08:00:00", e0 := "12:00:00" }) := by
  refine ⟨by decide +kernel, ?_, by decide +kernel⟩
  rw [addCamera_web_sameWindows_iff registeredClient "" "c" "p" "n" (by decide +kernel)]
  intro h
  have hknown := h _ rfl
  simp [windowTable] at hknown

end VideoAdapter.Adapter

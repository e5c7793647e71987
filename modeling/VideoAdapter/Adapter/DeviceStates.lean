import VideoAdapter.Adapter.Server
import VideoAdapter.Lib.Run

namespace VideoAdapter.Adapter

open Lib

-- The operations of one client that work on its device table.
inductive DeviceEvent where
  | addCamera (pid name : String) (allday : Int) (s0 e0 s1 e1 : String) (draws : Nat → Nat)
      (sent : Bool)
  | delCamera (pid : String) (draws : Nat → Nat) (sent : Bool)
  | modifyCamera (pid : String) (allday : Int) (s0 e0 s1 e1 : String)
  | notifyPush (devid : String) (env : PushEnv)
  | notifyStopPush (devid : String) (env : StopEnv)
  | checkState (cur : UInt64) (outside : DeviceNode → Bool) (sent : Bool)
  | handleUpdateChange (buf : Bytes)

-- The frame about a change of the table, if it was sent.
def changeFrame (type : Int) (pid : String) (draws : Nat → Nat) (sent : Bool) : List Outgoing :=
  if sent then [.notifyDeviceChange (generalSeqnumber draws) type pid] else []

def deviceStep (client : CMSClient) : DeviceEvent → Option (CMSClient × List Outgoing)
  | .addCamera pid name allday s0 e0 s1 e1 draws sent =>
      some ({ client with devlist := addCamera client.devlist pid name allday s0 e0 s1 e1 },
        changeFrame 1 pid draws sent)
  | .delCamera pid draws sent =>
      if client.devlist[pid]?.isNone then some (client, [])
      else some ({ client with devlist := delCamera client.devlist pid }, changeFrame 0 pid draws sent)
  | .modifyCamera pid allday s0 e0 s1 e1 =>
      some ({ client with devlist := modifyCamera client.devlist pid allday s0 e0 s1 e1 }, [])
  | .notifyPush devid env =>
      let (_, devlist, out) := notifyPush client.devlist devid env
      some ({ client with devlist }, out)
  | .notifyStopPush devid env =>
      let (_, devlist, out) := notifyStopPush client.devlist devid env
      some ({ client with devlist }, out)
  | .checkState cur outside sent => some (client.checkState cur outside sent).2
  | .handleUpdateChange buf =>
      (handleUpdateChange client.devlist buf).map fun devlist => ({ client with devlist }, [])

-- The flags that a report carries for one device, in the order of its items.
def reports (pid : String) (items : List StateItem) : List Int :=
  (items.filter (·.pid = pid)).map (·.flag)

def stateOf (devlist : DevList) (pid : String) : Option Int := devlist[pid]?.map (·.state)

-- Whether an operation changes the state of a device. A report may list a device several
-- times; a flag that differs from the state changes it, whatever the later items say.
def changes (client after : CMSClient) (pid : String) : DeviceEvent → Bool
  | .handleUpdateChange buf =>
      client.devlist[pid]?.any fun p => (reports pid (stateItems buf)).any (· ≠ p.state)
  | _ => stateOf client.devlist pid ≠ stateOf after.devlist pid

-- A client, and for every device the operation that last changed its state.
structure Tracked where
  client : CMSClient
  changed : String → Option DeviceEvent

def trackedStep (t : Tracked) (event : DeviceEvent) : Option (Tracked × List Outgoing) :=
  (deviceStep t.client event).map fun (after, out) =>
    ({ client := after,
       changed := fun pid => if changes t.client after pid event then some event else t.changed pid },
      out)

-- The client that a login builds from the camera rows.
def loaded (fd : Int) (cmsid : String) (livecount : UInt64) (rows : List TBDeviceEx) : Tracked where
  client := { fd, cmsid, livecount, devlist := loadRows rows, msglist := [] }
  changed _ := none

-- The push that a device is running: an answer with result 100 to the request that carried
-- the key, and the token of that answer.
def PushedBy (event : DeviceEvent) (pid : String) (p : DeviceNode) : Prop :=
  ∃ env answer, event = .notifyPush pid env ∧ env.sent = true ∧ env.answer = some answer ∧
    (RespPush.decode answer).result = 100 ∧ p.token = (RespPush.decode answer).token ∧
    p.key = generalToken env.draws 10

-- Every device is off line, online or pushing, and a pushing device was last changed by the
-- successful push whose token and key it holds.
def StatesTruthful (t : Tracked) : Prop :=
  ∀ (pid : String) (p : DeviceNode), t.client.devlist[pid]? = some p →
    (p.state = 0 ∨ p.state = 1 ∨ p.state = 2) ∧
    (p.state = 2 → ∃ event, t.changed pid = some event ∧ PushedBy event pid p)

-- The reports of an adapter that keep to the protocol: the last flag for a known device is
-- off line or online, or every flag confirms the push that the device is running.
def reportsTruthfully (_ : List (DeviceEvent × List Outgoing)) (t : Tracked) : DeviceEvent → Prop
  | .handleUpdateChange buf =>
      ∀ (pid : String) (p : DeviceNode), t.client.devlist[pid]? = some p →
        ∀ flag, (reports pid (stateItems buf)).getLast? = some flag →
          flag = 0 ∨ flag = 1 ∨
            (p.state = 2 ∧ ∀ flag ∈ reports pid (stateItems buf), flag = 2)
  | _ => True

variable {t after : Tracked} {event : DeviceEvent} {out : List Outgoing}

theorem trackedStep_cases (hs : trackedStep t event = some (after, out)) :
    deviceStep t.client event = some (after.client, out) ∧
      ∀ pid, (changes t.client after.client pid event → after.changed pid = some event) ∧
        (¬ changes t.client after.client pid event → after.changed pid = t.changed pid) := by
  obtain ⟨⟨client, out'⟩, hd, he⟩ := Option.map_eq_some_iff.mp hs
  cases he
  refine ⟨hd, fun pid => ⟨fun hc => ?_, fun hc => ?_⟩⟩
  · exact if_pos hc
  · exact if_neg hc

-- The devices after an operation that is no report: the state, the token and the key are as
-- before, or the device is off line or online.
def Calm (devlist after : DevList) : Prop :=
  ∀ (pid : String) (p' : DeviceNode), after[pid]? = some p' → p'.state = 0 ∨ p'.state = 1 ∨
    ∃ p : DeviceNode, devlist[pid]? = some p ∧ p'.state = p.state ∧ p'.token = p.token ∧
      p'.key = p.key

theorem StatesTruthful.of_calm (ht : StatesTruthful t) (hs : trackedStep t event = some (after, out))
    (hreport : ∀ buf, event ≠ .handleUpdateChange buf)
    (hcalm : Calm t.client.devlist after.client.devlist) : StatesTruthful after := by
  intro pid p' hp'
  have hkept := ((trackedStep_cases hs).2 pid).2
  rcases hcalm pid p' hp' with h0 | h1 | ⟨p, hp, hstate, htoken, hkey⟩
  · exact ⟨.inl h0, fun h2 => by simp [h0] at h2⟩
  · exact ⟨.inr (.inl h1), fun h2 => by simp [h1] at h2⟩
  · obtain ⟨hrange, hpush⟩ := ht pid p hp
    refine ⟨hstate ▸ hrange, fun h2 => ?_⟩
    obtain ⟨source, hsource, env, answer, he, hsent, hanswer, h100, htok, hk⟩ :=
      hpush (hstate ▸ h2)
    have hsame : ¬ changes t.client after.client pid event := by
      cases event <;> simp_all [changes, stateOf]
    exact ⟨source, (hkept hsame).trans hsource, env, answer, he, hsent, hanswer, h100,
      htoken.trans htok, hkey.trans hk⟩

theorem Calm.refl (devlist : DevList) : Calm devlist devlist :=
  fun _ p hp => .inr (.inr ⟨p, hp, rfl, rfl, rfl⟩)

-- One record is replaced by one that is off line or online, or that differs in other fields.
theorem Calm.insert (devlist : DevList) (pid : String) (next : DeviceNode)
    (hnext : next.state = 0 ∨ next.state = 1) : Calm devlist (devlist.insert pid next) := by
  intro x p' hp'
  rw [Std.ExtTreeMap.getElem?_insert] at hp'
  split at hp'
  · cases hp'
    exact hnext.imp id .inl
  · exact Calm.refl devlist x p' hp'

theorem Calm.erase (devlist : DevList) (pid : String) : Calm devlist (devlist.erase pid) := by
  intro x p' hp'
  rw [Std.ExtTreeMap.getElem?_erase] at hp'
  split at hp'
  · cases hp'
  · exact Calm.refl devlist x p' hp'

theorem Calm.modifyCamera (devlist : DevList) (pid : String) (allday : Int) (s0 e0 s1 e1 : String) :
    Calm devlist (modifyCamera devlist pid allday s0 e0 s1 e1) := by
  intro x p' hp'
  rw [Adapter.modifyCamera, Std.ExtTreeMap.getElem?_modify] at hp'
  split at hp'
  · rename_i hx
    obtain ⟨p, hp, rfl⟩ := Option.map_eq_some_iff.mp hp'
    rw [Std.LawfulEqCmp.eq_of_compare hx] at hp
    exact .inr (.inr ⟨p, hp, rfl, rfl, rfl⟩)
  · exact Calm.refl devlist x p' hp'

theorem Calm.stopDue (devlist : DevList) (outside : DeviceNode → Bool) :
    Calm devlist (stopDue outside devlist) := by
  intro x p' hp'
  rw [Adapter.stopDue, Std.ExtTreeMap.getElem?_map] at hp'
  obtain ⟨p, hp, rfl⟩ := Option.map_eq_some_iff.mp hp'
  split
  · exact .inr (.inl rfl)
  · exact .inr (.inr ⟨p, hp, rfl, rfl, rfl⟩)

theorem Calm.checkState (client : CMSClient) (cur : UInt64) (outside : DeviceNode → Bool)
    (sent : Bool) : Calm client.devlist (client.checkState cur outside sent).2.1.devlist := by
  unfold CMSClient.checkState
  split
  · exact .refl _
  · dsimp only
    split_ifs <;> exact Calm.stopDue client.devlist outside

theorem Calm.notifyStopPush (devlist : DevList) (devid : String) (env : StopEnv) :
    Calm devlist (notifyStopPush devlist devid env).2.1 := by
  unfold Adapter.notifyStopPush
  split
  · exact .refl _
  · split_ifs
    · exact .refl _
    · exact .refl _
    · exact .insert _ _ _ (.inr rfl)
    · exact .refl _

-- A push leaves the table as it is, or writes the record of the device from the answer.
theorem notifyPush_cases (devlist : DevList) (devid : String) (env : PushEnv) :
    (notifyPush devlist devid env).2.1 = devlist ∨
      ∃ pItem answer, devlist[devid]? = some pItem ∧ pItem.state ≠ 2 ∧ env.sent = true ∧
        env.answer = some answer ∧ (RespPush.decode answer).result = 100 ∧
        (notifyPush devlist devid env).2.1 =
          devlist.insert devid (pItem.pushing (RespPush.decode answer).token (generalToken env.draws 10)) := by
  unfold notifyPush
  split
  · exact .inl rfl
  · rename_i pItem hp
    split_ifs with h2 hsent
    · exact .inl rfl
    · exact .inl rfl
    · dsimp only
      split
      · exact .inl rfl
      · rename_i resp hresp
        obtain ⟨answer, ha, rfl⟩ := Option.map_eq_some_iff.mp hresp
        split_ifs with h100
        · exact .inr ⟨pItem, answer, hp, h2, by simpa using hsent, ha, h100, rfl⟩
        · exact .inl rfl

theorem StatesTruthful.notifyPush (ht : StatesTruthful t) {devid : String} {env : PushEnv}
    (hs : trackedStep t (.notifyPush devid env) = some (after, out)) : StatesTruthful after := by
  obtain ⟨hd, hchanged⟩ := trackedStep_cases hs
  have hafter : (Adapter.notifyPush t.client.devlist devid env).2.1 = after.client.devlist :=
    congrArg (·.1.devlist) (Option.some.inj hd)
  rcases notifyPush_cases t.client.devlist devid env with hsame | ⟨pItem, answer, hp, h2, hsent, ha, h100, hi⟩
  · refine ht.of_calm hs (fun buf => by simp) ?_
    rw [← hafter, hsame]
    exact .refl _
  · rw [hi] at hafter
    intro x p' hp'
    rw [← hafter, Std.ExtTreeMap.getElem?_insert] at hp'
    split at hp'
    · rename_i hx
      obtain rfl := Std.LawfulEqCmp.eq_of_compare hx
      cases hp'
      refine ⟨.inr (.inr rfl), fun _ => ⟨_, (hchanged devid).1 ?_, env, answer, rfl, hsent, ha, h100, rfl, rfl⟩⟩
      simp [changes, stateOf, hp, ← hafter, DeviceNode.pushing, h2]
    · rename_i hx
      obtain ⟨hrange, hpush⟩ := ht x p' hp'
      refine ⟨hrange, fun hp2 => ?_⟩
      rw [(hchanged x).2]
      · exact hpush hp2
      · simp [changes, stateOf, ← hafter, Std.ExtTreeMap.getElem?_insert, hx]

theorem setState_getElem? (devlist : DevList) (item : StateItem) (pid : String) :
    (setState devlist item)[pid]? =
      if item.pid = pid then devlist[pid]?.map fun p => { p with state := item.flag }
      else devlist[pid]? := by
  rw [setState, Std.ExtTreeMap.getElem?_modify]
  by_cases hx : item.pid = pid
  · subst hx
    simp
  · simp [hx]

-- A device ends with the last flag that the report carries for it.
theorem foldl_setState (items : List StateItem) (devlist : DevList) (pid : String) :
    (items.foldl setState devlist)[pid]? =
      devlist[pid]?.map fun p => { p with state := (reports pid items).getLastD p.state } := by
  induction items generalizing devlist with
  | nil => simp [reports]
  | cons item rest ih =>
      rw [List.foldl_cons, ih, setState_getElem?]
      by_cases hx : item.pid = pid
      · rw [if_pos hx, Option.map_map]
        have hreports : reports pid (item :: rest) = item.flag :: reports pid rest := by
          simp [reports, hx]
        rw [hreports]
        congr 1
        funext p
        simp only [Function.comp, List.getLastD_cons]
      · have hreports : reports pid (item :: rest) = reports pid rest := by
          simp [reports, hx]
        rw [if_neg hx, hreports]

theorem handleUpdateChange_eq {devlist last : DevList} {buf : Bytes}
    (h : handleUpdateChange devlist buf = some last) :
    last = (stateItems buf).foldl setState devlist := by
  unfold handleUpdateChange at h
  split at h
  · cases h
  · exact (Option.some.inj h).symm

theorem not_pushedBy_report (buf : Bytes) (pid : String) (p : DeviceNode) :
    ¬ PushedBy (.handleUpdateChange buf) pid p := by
  rintro ⟨env, answer, he, -⟩
  cases he

-- A report leaves the state of a device alone exactly if all its flags are that state.
theorem not_changes_report_iff (last : CMSClient) (buf : Bytes) {pid : String} {p : DeviceNode}
    (hp : t.client.devlist[pid]? = some p) :
    ¬ changes t.client last pid (.handleUpdateChange buf) = true ↔
      ∀ flag ∈ reports pid (stateItems buf), flag = p.state := by
  simp [changes, hp]

-- A report keeps one device truthful exactly if its last flag is 0 or 1, or the device is
-- pushing and no flag says otherwise.
theorem report_truthful_iff (ht : StatesTruthful t) {buf : Bytes}
    (hs : trackedStep t (.handleUpdateChange buf) = some (after, out)) (pid : String)
    {p : DeviceNode} (hp : t.client.devlist[pid]? = some p) :
    (∀ p' : DeviceNode, after.client.devlist[pid]? = some p' →
      (p'.state = 0 ∨ p'.state = 1 ∨ p'.state = 2) ∧
      (p'.state = 2 → ∃ event, after.changed pid = some event ∧ PushedBy event pid p')) ↔
    ∀ flag, (reports pid (stateItems buf)).getLast? = some flag →
      flag = 0 ∨ flag = 1 ∨ (p.state = 2 ∧ ∀ flag ∈ reports pid (stateItems buf), flag = 2) := by
  obtain ⟨hd, hchanged⟩ := trackedStep_cases hs
  obtain ⟨devlist, hu, he⟩ := Option.map_eq_some_iff.mp hd
  have hlist : after.client.devlist = (stateItems buf).foldl setState t.client.devlist := by
    rw [← handleUpdateChange_eq hu, ← congrArg (·.1.devlist) he]
  have hafter : after.client.devlist[pid]? =
      some { p with state := (reports pid (stateItems buf)).getLastD p.state } := by
    rw [hlist, foldl_setState, hp]
    rfl
  obtain ⟨hrange, hpush⟩ := ht pid p hp
  have hquiet := not_changes_report_iff after.client buf hp
  cases hlast : (reports pid (stateItems buf)).getLast? with
  | none =>
      -- the report does not name the device
      have hnil : reports pid (stateItems buf) = [] := List.getLast?_eq_none_iff.mp hlast
      have hkept : after.changed pid = t.changed pid := (hchanged pid).2 (hquiet.mpr (by simp [hnil]))
      refine iff_of_true (fun p' hp' => ?_) (fun flag hf => by cases hf)
      rw [hafter] at hp'
      cases hp'
      simp only [hnil, List.getLastD_nil, hkept]
      exact ⟨hrange, hpush⟩
  | some flag =>
      have hstate : (reports pid (stateItems buf)).getLastD p.state = flag := by
        rw [List.getLastD_eq_getLast?, hlast]
        rfl
      have hmem : flag ∈ reports pid (stateItems buf) := List.mem_of_getLast? hlast
      rw [hstate] at hafter
      constructor
      · intro htrue flag' hf
        cases hf
        obtain ⟨h01 | h01 | h2, hsource⟩ := htrue _ hafter
        · exact .inl h01
        · exact .inr (.inl h01)
        · -- the report has not changed the state, so no flag differs from it
          have hnot : ¬ changes t.client after.client pid (.handleUpdateChange buf) = true := by
            intro hc
            obtain ⟨event, hev, hby⟩ := hsource h2
            rw [(hchanged pid).1 hc] at hev
            cases hev
            exact not_pushedBy_report _ _ _ hby
          have hall := hquiet.mp hnot
          have hp2 : p.state = 2 := (hall flag hmem).symm.trans h2
          exact .inr (.inr ⟨hp2, fun flag' hf => (hall flag' hf).trans hp2⟩)
      · intro hguard p' hp'
        rw [hafter] at hp'
        cases hp'
        rcases hguard flag rfl with h0 | h1 | ⟨hp2, hall⟩
        · exact ⟨.inl h0, fun h2 => by simp [h0] at h2⟩
        · exact ⟨.inr (.inl h1), fun h2 => by simp [h1] at h2⟩
        · have hnot := hquiet.mpr fun flag' hf => (hall flag' hf).trans hp2.symm
          refine ⟨.inr (.inr (hall flag hmem)), fun _ => ?_⟩
          obtain ⟨event, hev, hby⟩ := hpush hp2
          exact ⟨event, ((hchanged pid).2 hnot).trans hev, hby⟩

theorem deviceStep_calm {client last : CMSClient} (hd : deviceStep client event = some (last, out))
    (hpush : ∀ devid env, event ≠ .notifyPush devid env)
    (hreport : ∀ buf, event ≠ .handleUpdateChange buf) : Calm client.devlist last.devlist := by
  cases event with
  | addCamera pid name allday s0 e0 s1 e1 draws sent =>
      cases hd
      exact Calm.insert client.devlist pid _ (.inl (newCamera_state ..))
  | delCamera pid draws sent =>
      simp only [deviceStep] at hd
      split at hd
      · cases hd
        exact .refl _
      · cases hd
        exact Calm.erase client.devlist pid
  | modifyCamera pid allday s0 e0 s1 e1 =>
      cases hd
      exact Calm.modifyCamera client.devlist pid allday s0 e0 s1 e1
  | notifyPush devid env => exact absurd rfl (hpush devid env)
  | notifyStopPush devid env =>
      cases hd
      exact Calm.notifyStopPush client.devlist devid env
  | checkState cur outside sent =>
      have hc := Calm.checkState client cur outside sent
      rwa [Option.some.inj hd] at hc
  | handleUpdateChange buf => exact absurd rfl (hreport buf)

theorem StatesTruthful.report_iff (ht : StatesTruthful t) {buf : Bytes}
    (hs : trackedStep t (.handleUpdateChange buf) = some (after, out)) :
    (∀ (pid : String) (p : DeviceNode), t.client.devlist[pid]? = some p →
      ∀ flag, (reports pid (stateItems buf)).getLast? = some flag → flag = 0 ∨ flag = 1 ∨
        (p.state = 2 ∧ ∀ flag ∈ reports pid (stateItems buf), flag = 2)) ↔
      StatesTruthful after := by
  constructor
  · intro hguard pid p' hp'
    obtain ⟨devlist, hu, he⟩ := Option.map_eq_some_iff.mp (trackedStep_cases hs).1
    have hp := hp'
    rw [← congrArg (·.1.devlist) he, handleUpdateChange_eq hu, foldl_setState] at hp
    obtain ⟨p, hp, -⟩ := Option.map_eq_some_iff.mp hp
    exact (report_truthful_iff ht hs pid hp).mpr (hguard pid p hp) p' hp'
  · intro hafter pid p hp
    exact (report_truthful_iff ht hs pid hp).mp (hafter pid)

-- Only a report can break the record of the device states, and it does so exactly when it
-- does not keep to the protocol.
theorem step_truthful_iff (history : List (DeviceEvent × List Outgoing)) (ht : StatesTruthful t)
    (hs : trackedStep t event = some (after, out)) :
    reportsTruthfully history t event ↔ StatesTruthful after := by
  by_cases hreport : ∃ buf, event = .handleUpdateChange buf
  · obtain ⟨buf, rfl⟩ := hreport
    exact ht.report_iff hs
  · have hguard : reportsTruthfully history t event := by
      cases event <;> first | trivial | exact absurd ⟨_, rfl⟩ hreport
    refine iff_of_true hguard ?_
    by_cases hpush : ∃ devid env, event = .notifyPush devid env
    · obtain ⟨devid, env, rfl⟩ := hpush
      exact ht.notifyPush hs
    · have hno : ∀ buf, event ≠ .handleUpdateChange buf := fun buf he => hreport ⟨buf, he⟩
      exact ht.of_calm hs hno (deviceStep_calm (trackedStep_cases hs).1
        (fun devid env he => hpush ⟨devid, env, he⟩) hno)

-- What every new record has, every loaded record has.
theorem loadRows_forall (P : String → DeviceNode → Prop)
    (hnew : ∀ pid name allday s0 e0 s1 e1, P pid (newCamera pid name allday s0 e0 s1 e1))
    (rows : List TBDeviceEx) (pid : String) (p : DeviceNode)
    (hp : (loadRows rows)[pid]? = some p) : P pid p := by
  have hload : ∀ (rows : List TBDeviceEx) (devlist : DevList),
      (∀ (pid : String) (p : DeviceNode), devlist[pid]? = some p → P pid p) →
      ∀ (pid : String) (p : DeviceNode), (rows.foldl (fun devlist r =>
        addCamera devlist r.pid r.name r.allday r.s0 r.e0 r.s1 r.e1) devlist)[pid]? = some p →
        P pid p := by
    intro rows
    induction rows with
    | nil => exact fun devlist h => h
    | cons row rest ih =>
        intro devlist h
        refine ih _ fun pid p hp => ?_
        simp only [addCamera, Std.ExtTreeMap.getElem?_insert] at hp
        split at hp
        · rename_i hx
          obtain rfl := Std.LawfulEqCmp.eq_of_compare hx
          cases hp
          exact hnew ..
        · exact h pid p hp
  exact hload rows ∅ (by simp) pid p hp

theorem loaded_truthful (fd : Int) (cmsid : String) (livecount : UInt64) (rows : List TBDeviceEx) :
    StatesTruthful (loaded fd cmsid livecount rows) := by
  intro pid p hp
  have h0 : p.state = 0 := loadRows_forall (fun _ p => p.state = 0) newCamera_state rows pid p hp
  exact ⟨.inl h0, fun h2 => by simp [h0] at h2⟩

-- The device states are right in every state of a run exactly if every report of the
-- adapter keeps to the protocol.
theorem states_truthful_iff {fd : Int} {cmsid : String} {livecount : UInt64}
    {rows : List TBDeviceEx} {history : List (DeviceEvent × List Outgoing)} {final : Tracked}
    (run : Run trackedStep free (loaded fd cmsid livecount rows) history final) :
    Run trackedStep reportsTruthfully (loaded fd cmsid livecount rows) history final ↔
      ∀ earlier state, earlier <:+ history →
        Run trackedStep free (loaded fd cmsid livecount rows) earlier state →
        StatesTruthful state := by
  refine run.guarded_iff (fun _ t => StatesTruthful t) (loaded_truthful fd cmsid livecount rows) ?_
  intro history before event after out ht hs
  exact step_truthful_iff history ht hs

def oneCamera : Tracked := loaded 7 "A" 0 [{ pid := "d", name := "d", allday := 1 }]

def pushAnswered (token : String) : PushEnv :=
  ⟨fun _ => 0, true, some (RespPush.encode ⟨100, token⟩)⟩

-- A test that is enough for a report: every flag in it is 0 or 1.
def reportsOnline (_ : List (DeviceEvent × List Outgoing)) (_ : Tracked) (event : DeviceEvent) : Bool :=
  match event with
  | .handleUpdateChange buf => (stateItems buf).all fun item => item.flag = 0 ∨ item.flag = 1
  | _ => true

theorem reportsTruthfully_of_online (history : List (DeviceEvent × List Outgoing)) (t : Tracked)
    (event : DeviceEvent) (h : reportsOnline history t event = true) :
    reportsTruthfully history t event := by
  cases event with
  | handleUpdateChange buf =>
      intro pid p _ flag hlast
      obtain ⟨item, hm, rfl⟩ := List.mem_map.mp (List.mem_of_getLast? hlast)
      have hflag := of_decide_eq_true (List.all_eq_true.mp h item (List.mem_filter.mp hm).1)
      exact hflag.imp id .inl
  | _ => trivial

-- The adapter reports the camera online, and a push starts it.
theorem states_truthful_after_push :
    ∃ history t, Run trackedStep reportsTruthfully oneCamera history t ∧
      t.client.devlist["d"]?.any (·.state = 2) = true ∧ StatesTruthful t := by
  obtain ⟨history, t, run, ht⟩ := exists_run_of_ends trackedStep reportsTruthfully oneCamera
    [.handleUpdateChange (encodeItems [⟨"d", 1⟩]), .notifyPush "d" (pushAnswered "t")]
    (fun _ t => t.client.devlist["d"]?.any (·.state = 2))
    (guarded_of_passes reportsOnline reportsTruthfully_of_online (by decide +kernel))
    (by decide +kernel)
  have hfree := run.unguarded
  exact ⟨history, t, run, ht, (states_truthful_iff hfree).mp run history t (List.suffix_refl _) hfree⟩

-- A report with flag 2 makes a device that nobody pushes a pushing one, without a key.
theorem states_not_truthful :
    ¬ ∀ fd cmsid livecount rows history t,
      Run trackedStep free (loaded fd cmsid livecount rows) history t → StatesTruthful t := by
  intro hall
  obtain ⟨history, t, run, ht⟩ := exists_run_of_ends trackedStep free oneCamera
    [.handleUpdateChange (encodeItems [⟨"d", 2⟩])]
    (fun _ t => t.client.devlist["d"]?.any fun p => p.state = 2 ∧ p.key = "")
    (guarded_free ..) (by decide +kernel)
  obtain ⟨p, hp, hc⟩ := (Option.any_eq_true _ _).mp ht
  obtain ⟨h2, hkey⟩ := of_decide_eq_true hc
  obtain ⟨event, -, env, answer, -, -, -, -, -, hk⟩ := (hall _ _ _ _ history t run "d" p hp).2 h2
  exact generalToken_ne_empty env.draws 10 (by decide) (hk.symm.trans hkey)

end VideoAdapter.Adapter

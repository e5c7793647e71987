import VideoAdapter.Adapter.Push.Pointers

namespace VideoAdapter.Adapter

open Lib PushClient

-- The key that was last sent to the adapter for a device, and the one last stored for it.
def PushOutput.issuedKey (d : String) : PushOutput → Option String
  | .sent (.reqPush _ pid key) => if pid = d then some key else none
  | _ => none

def PushOutput.storedKey (d : String) : PushOutput → Option String
  | .stored pid key => if pid = d then some key else none
  | _ => none

-- Both are about the record that the device has now.
def issuedKey (d : String) : PushHistory → Option String
  | [] => none
  | (event, out) :: earlier =>
      if event.renews d then none
      else (out.findSome? (PushOutput.issuedKey d)).or (issuedKey d earlier)

def storedKey (d : String) : PushHistory → Option String
  | [] => none
  | (event, out) :: earlier =>
      if event.renews d then none
      else (out.findSome? (PushOutput.storedKey d)).or (storedKey d earlier)

-- The device is not added again or deleted while a call holds its record.
def keepsDevice (d : String) (_ : PushHistory) (m : PushClient) (event : PushEvent) : Prop :=
  event.renews d = true → ∀ call ∈ m.calls, call.devid = d → call.pc.pItem = none

variable {m after : PushClient} {i : Nat} {call : PushCall} {pc : PushPc} {d k : String}
  {node : DeviceNode} {event : PushEvent} {out : List PushOutput} {env : PushStepEnv}
  {history : PushHistory}

-- The record of the device holds the key that was last stored; the calls for the device
-- all lead to this record.
structure Current (d : String) (history : PushHistory) (m : PushClient) : Prop where
  key : ∀ (p : Nat) (node : DeviceNode), m.devlist[d]? = some p → m.node p = some node →
    node.key = (storedKey d history).getD ""
  calls : ∀ (i : Nat) (call : PushCall) (p : Nat), m.calls[i]? = some call → call.devid = d →
    call.pc.pItem = some p → m.devlist[d]? = some p
  issued : ∀ k, issuedKey d history = some k → k ≠ "" ∧ (m.devlist[d]?).isSome

-- A step that stores nothing for the device, and sends for it only what is not empty.
theorem Current.quiet (hv : Current d history m) (hrenew : event.renews d = false)
    (hlisted : after.devlist[d]? = m.devlist[d]?)
    (hnode : ∀ p, m.devlist[d]? = some p → ∃ f : DeviceNode → DeviceNode,
      (∀ node, (f node).key = node.key) ∧ after.node p = (m.node p).map f)
    (hcalls : ∀ (i : Nat) (call : PushCall) (p : Nat), after.calls[i]? = some call →
      call.devid = d → call.pc.pItem = some p → m.devlist[d]? = some p)
    (hstored : out.findSome? (PushOutput.storedKey d) = none)
    (hissued : ∀ k, out.findSome? (PushOutput.issuedKey d) = some k →
      k ≠ "" ∧ (m.devlist[d]?).isSome) :
    Current d ((event, out) :: history) after := by
  refine ⟨fun p node hp hn => ?_, fun i call p hc hd hp => ?_, fun k hk => ?_⟩
  · rw [hlisted] at hp
    obtain ⟨f, hf, hafter⟩ := hnode p hp
    rw [hafter] at hn
    obtain ⟨old, hold, rfl⟩ := Option.map_eq_some_iff.mp hn
    rw [hf, hv.key p old hp hold]
    simp [storedKey, hrenew, hstored]
  · rw [hlisted]
    exact hcalls i call p hc hd hp
  · rw [hlisted]
    simp only [issuedKey, hrenew, Bool.false_eq_true, if_false] at hk
    rcases Option.or_eq_some_iff.mp hk with hk | ⟨-, hk⟩
    · exact hissued k hk
    · exact hv.issued k hk

-- A step that does not touch the device table.
theorem Current.still (hv : Current d history m) (hrenew : event.renews d = false)
    (hdevlist : after.devlist = m.devlist) (hnodes : after.nodes = m.nodes)
    (hcalls : ∀ (i : Nat) (call : PushCall) (p : Nat), after.calls[i]? = some call →
      call.devid = d → call.pc.pItem = some p → m.devlist[d]? = some p)
    (hstored : out.findSome? (PushOutput.storedKey d) = none)
    (hissued : ∀ k, out.findSome? (PushOutput.issuedKey d) = some k →
      k ≠ "" ∧ (m.devlist[d]?).isSome) :
    Current d ((event, out) :: history) after := by
  refine hv.quiet hrenew (by rw [hdevlist]) (fun p _ => ?_) hcalls hstored hissued
  exact ⟨id, fun _ => rfl, by simp [PushClient.node, hnodes]⟩

theorem Current.goto (hv : Current d history m) (mid : PushClient)
    (hcalls : mid.calls = m.calls) (hc : m.calls[i]? = some call) (pc : PushPc)
    (hp : ∀ p, pc.pItem = some p → call.pc.pItem = some p ∨ m.devlist[call.devid]? = some p)
    (j : Nat) (callj : PushCall) (p : Nat) (hj : (mid.goto i pc).calls[j]? = some callj)
    (hd : callj.devid = d) (hq : callj.pc.pItem = some p) : m.devlist[d]? = some p := by
  rw [calls_goto mid i j pc (hcalls ▸ hc), hcalls] at hj
  split at hj
  · cases hj
    rcases hp p hq with hold | htable
    · exact hv.calls i call p hc hd hold
    · exact (show call.devid = d from hd) ▸ htable
  · exact hv.calls j callj p hj hd hq

-- The store of an answered call.
theorem Current.store (hv : Current d history m) (hlinked : Linked m) {devid push_key : String}
    {q : Nat} {resp : RespPush} {pItem : DeviceNode}
    (hc : m.calls[i]? = some ⟨devid, .store q push_key resp⟩) (hn : m.node q = some pItem)
    (hstep : event.renews d = false) (res : NotifyResult) :
    Current d ((event, [.stored devid push_key]) :: history)
      (PushClient.goto { m with nodes := m.nodes.set q (some (pItem.pushing resp.token push_key)) } i
        (.done res (some resp))) := by
  have hcalls := hv.goto { m with nodes := m.nodes.set q (some (pItem.pushing resp.token push_key)) }
    rfl hc (.done res (some resp)) (fun _ h => by cases h)
  have hnode : ∀ p, PushClient.node (PushClient.goto { m with
      nodes := m.nodes.set q (some (pItem.pushing resp.token push_key)) } i (.done res (some resp))) p =
      if q = p then some (pItem.pushing resp.token push_key) else m.node p :=
    fun p => node_set (lt_length_of_node hn) _ rfl
  have hpid : pItem.pid = devid := hlinked.calls i _ q pItem hc rfl hn
  by_cases hd : devid = d
  · -- the call leads to the record of the device
    have hq := hv.calls i _ q hc hd rfl
    refine ⟨fun p node hp hnp => ?_, hcalls, fun k hk => ?_⟩
    · obtain rfl : q = p := Option.some.inj (hq.symm.trans hp)
      rw [hnode, if_pos rfl] at hnp
      cases hnp
      simp [storedKey, hstep, PushOutput.storedKey, hd, DeviceNode.pushing]
    · simp only [issuedKey, hstep, Bool.false_eq_true, if_false, List.findSome?_singleton,
        PushOutput.issuedKey, Option.none_or] at hk
      exact hv.issued k hk
  · refine hv.quiet hstep rfl (fun p hp => ⟨id, fun _ => rfl, ?_⟩) hcalls
      (by simp [PushOutput.storedKey, hd]) (fun _ h => by simp [PushOutput.issuedKey] at h)
    -- another device has another record
    have hqp : q ≠ p := by
      rintro rfl
      obtain ⟨node, hn', hpid'⟩ := hlinked.devlist d q hp
      rw [hn] at hn'
      cases hn'
      exact hd (hpid.symm.trans hpid')
    rw [hnode, if_neg hqp, Option.map_id, id_eq]

theorem Current.move (hv : Current d history m) (hlinked : Linked m)
    (hc : m.calls[i]? = some call) (hstep : event.renews d = false)
    (move : PushMove m i call.devid env call.pc after out) :
    Current d ((event, out) :: history) after := by
  have hsilent : ∀ k, ([] : List PushOutput).findSome? (PushOutput.issuedKey d) = some k →
      k ≠ "" ∧ (m.devlist[d]?).isSome := by
    intro k hk
    cases hk
  obtain ⟨devid, pc⟩ := call
  cases move with
  | unknown | pushing | timeout | refused =>
      exact hv.still hstep rfl rfl (hv.goto _ rfl hc _ (fun _ h => by cases h)) rfl hsilent
  | lost =>
      exact hv.still hstep rfl rfl (hv.goto _ rfl hc _ (fun _ h => by cases h))
        (by simp [PushOutput.storedKey]) (fun _ h => by simp [PushOutput.issuedKey] at h)
  | found q pItem hd hn h2 =>
      have hcalls := hv.goto m rfl hc (.send q) (fun _ h => .inr (by cases h; exact hd))
      exact hv.still hstep rfl rfl hcalls rfl hsilent
  | sent q hs =>
      refine hv.still hstep rfl rfl (hv.goto _ rfl hc _ (fun _ h => .inl h))
        (by simp [PushOutput.storedKey]) (fun k h => ?_)
      simp only [pushRequest, List.findSome?_singleton, PushOutput.issuedKey] at h
      split at h
      · rename_i hd
        cases h
        refine ⟨generalToken_ne_empty env.draws 10 (by decide), ?_⟩
        rw [hv.calls i _ q hc hd rfl]
        rfl
      · cases h
  | refreshed | taken =>
      exact hv.still hstep rfl rfl (hv.goto _ rfl hc _ (fun _ h => .inl h)) rfl hsilent
  | waiting => exact hv.still hstep rfl rfl hv.calls rfl hsilent
  | stored q push_key resp pItem hn => exact hv.store hlinked hc hn hstep _

-- The device gets a new record without a key, or none, and no call holds the old one.
theorem Current.renew (hrenew : event.renews d = true)
    (hguard : keepsDevice d history m event) (hcalls : after.calls = m.calls)
    (hkey : ∀ p node, after.devlist[d]? = some p → after.node p = some node → node.key = "") :
    Current d ((event, out) :: history) after := by
  refine ⟨fun p node hp hn => ?_, fun i call p hc hd hp => ?_, fun k hk => ?_⟩
  · rw [hkey p node hp hn]
    simp [storedKey, hrenew]
  · have hnone := hguard hrenew call (List.mem_of_getElem? (hcalls ▸ hc)) hd
    rw [hp] at hnone
    cases hnone
  · simp [issuedKey, hrenew] at hk

theorem Current.addCamera (hv : Current d history m) (hlinked : Linked m) {pid name : String}
    {allday : Int} {s0 e0 s1 e1 : String}
    (hguard : keepsDevice d history m (.addCamera pid name allday s0 e0 s1 e1)) :
    Current d ((.addCamera pid name allday s0 e0 s1 e1, []) :: history)
      (m.addCamera pid name allday s0 e0 s1 e1) := by
  by_cases hd : pid = d
  · refine Current.renew (by simp [PushEvent.renews, hd]) hguard rfl fun p node hp hn => ?_
    rw [devlist_addCamera, if_pos hd] at hp
    rw [node_addCamera, if_pos (Option.some.inj hp).symm] at hn
    cases hn
    exact newCamera_key ..
  · refine hv.quiet (by simp [PushEvent.renews, hd]) ((devlist_addCamera ..).trans (if_neg hd))
      (fun p hp => ⟨id, fun _ => rfl, ?_⟩) hv.calls rfl (fun _ h => by cases h)
    obtain ⟨record, hrecord, -⟩ := hlinked.devlist d p hp
    rw [node_addCamera, if_neg (Nat.ne_of_lt (lt_length_of_node hrecord)), Option.map_id, id_eq]

theorem Current.delCamera (hv : Current d history m) (hlinked : Linked m) {pid : String} {q : Nat}
    (hq : m.devlist[pid]? = some q) (hguard : keepsDevice d history m (.delCamera pid)) :
    Current d ((.delCamera pid, []) :: history)
      { m with nodes := m.nodes.set q none, devlist := m.devlist.erase pid } := by
  by_cases hd : pid = d
  · refine Current.renew (by simp [PushEvent.renews, hd]) hguard rfl fun p node hp _ => ?_
    simp [hd] at hp
  · refine hv.quiet (by simp [PushEvent.renews, hd]) ?_ (fun p hp => ⟨id, fun _ => rfl, ?_⟩)
      hv.calls rfl (fun _ h => by cases h)
    · simp [Std.ExtTreeMap.getElem?_erase, hd]
    · obtain ⟨record, hrecord, -⟩ := hlinked.devlist pid q hq
      rw [node_set (lt_length_of_node hrecord) _ rfl, if_neg (hlinked.ne_of_devid hq hp hd),
        Option.map_id, id_eq]

theorem Current.table (hv : Current d history m) (hlinked : Linked m)
    (hguard : keepsDevice d history m event) (move : TableMove m event after) :
    Current d ((event, []) :: history) after := by
  cases move with
  | rewritten h hevent =>
      refine hv.quiet (hevent d) (by rw [h.devlist]) (fun p _ => ?_) (h.calls ▸ hv.calls) rfl
        (fun _ h => by cases h)
      obtain ⟨f, -, hkey, hf⟩ := h.node p
      exact ⟨f, hkey, hf⟩
  | absent pid hp =>
      by_cases hd : pid = d
      · refine Current.renew (by simp [PushEvent.renews, hd]) hguard rfl fun p node hp' _ => ?_
        rw [← hd, hp] at hp'
        cases hp'
      · exact hv.still (by simp [PushEvent.renews, hd]) rfl rfl hv.calls rfl (fun _ h => by cases h)
  | added => exact hv.addCamera hlinked hguard
  | deleted pid q hq => exact hv.delCamera hlinked hq hguard

theorem Current.step (hv : Current d history m) (hlinked : Linked m)
    (hguard : keepsDevice d history m event) (hs : pushStep m event = some (after, out)) :
    Current d ((event, out) :: history) after := by
  cases pushStep_cases hs with
  | call devid =>
      refine hv.still rfl rfl rfl (fun j callj p hj hd hp => ?_) rfl (fun _ h => by cases h)
      rcases calls_call m j hj with hj | hpc
      · exact hv.calls j callj p hj hd hp
      · simp [hpc, PushPc.pItem] at hp
  | advance i env call after out hc move => exact hv.move hlinked hc rfl move
  | answer r body tick request hr hopen =>
      exact hv.still rfl (by simp) (by simp) (by simpa using hv.calls)
        rfl (fun _ h => by cases h)
  | mail cmd seq body tick =>
      exact hv.still rfl (by simp) (by simp) (by simpa using hv.calls)
        rfl (fun _ h => by cases h)
  | table event after move => exact hv.table hlinked hguard move

-- After a login there are no calls, and no record has a key.
theorem current_loggedIn (d : String) (rows : List TBDeviceEx) : Current d [] (loggedIn rows) := by
  have hfresh := loggedIn_induction (fun m =>
    m.calls = [] ∧ ∀ p node, m.node p = some node → node.key = "") ?_ ?_ rows
  · exact ⟨fun p node _ hn => hfresh.2 p node hn, by simp [hfresh.1], by simp [issuedKey]⟩
  · exact ⟨rfl, by simp [PushClient.node]⟩
  · intro m pid name allday s0 e0 s1 e1 hm
    refine ⟨hm.1, fun p node hn => ?_⟩
    rw [node_addCamera] at hn
    split at hn
    · cases hn
      exact newCamera_key ..
    · exact hm.2 p node hn

theorem current_run {rows : List TBDeviceEx}
    (hrun : Run pushStep (keepsDevice d) (loggedIn rows) history m) :
    Linked m ∧ Current d history m := by
  refine hrun.invariant (fun history m => Linked m ∧ Current d history m)
    ⟨linked_loggedIn rows, current_loggedIn d rows⟩ ?_
  intro history before event after out hv hguard hs
  exact ⟨hv.1.step hs, hv.2.step hv.1 hguard hs⟩

-- A check for the key that was last sent to the adapter is passed exactly from the time
-- when a call has stored this key, and until one stores another key.
theorem checkPush_iff_storedKey {rows : List TBDeviceEx}
    (hrun : Run pushStep (keepsDevice d) (loggedIn rows) history m)
    (hk : issuedKey d history = some k) :
    m.checkPush d k = true ↔ storedKey d history = some k := by
  obtain ⟨hlinked, hv⟩ := current_run hrun
  obtain ⟨hne, hlisted⟩ := hv.issued k hk
  obtain ⟨p, hp⟩ := Option.isSome_iff_exists.mp hlisted
  obtain ⟨node, hn, -⟩ := hlinked.devlist d p hp
  have hdevice : m.device d = some node := by
    unfold PushClient.device
    rw [hp, Option.bind_some, hn]
  simp only [PushClient.checkPush, hdevice, decide_eq_true_eq]
  rw [hv.key p node hp hn]
  cases hs : storedKey d history with
  | none => simpa using hne.symm
  | some key => simp

-- Once the answer is stored, the key is allowed.
theorem checkPush_after_store :
    ∃ history m, Run pushStep (keepsDevice "d") (loggedIn [⟨"d", "", 1, "", "", "", ""⟩]) history m ∧
      issuedKey "d" history = some "3333333333" ∧ m.checkPush "d" "3333333333" = true := by
  obtain ⟨history, m, run, ht⟩ := exists_run_of_ends pushStep (keepsDevice "d")
    (loggedIn [⟨"d", "", 1, "", "", "", ""⟩])
    [.call "d", go 0 3 false, go 0 3 true, go 0 3 false, reply 0 "T", go 0 3 false, go 0 3 false]
    (fun history _ =>
      issuedKey "d" history = some "3333333333" ∧ storedKey "d" history = some "3333333333")
    (guarded_of_passes (fun _ _ event => !event.renews "d") (fun _ _ _ h hr => by simp [hr] at h)
      (by decide +kernel)) (by decide +kernel)
  obtain ⟨hissued, hstored⟩ := of_decide_eq_true ht
  exact ⟨history, m, run, hissued, (checkPush_iff_storedKey run hissued).mpr hstored⟩

-- The adapter publishes as soon as it has the request: nothing is stored yet.
theorem checkPush_refused_before_store :
    ¬ ∀ rows d history m k, Run pushStep (keepsDevice d) (loggedIn rows) history m →
      issuedKey d history = some k → m.checkPush d k = true := by
  intro hall
  obtain ⟨history, m, run, ht⟩ := exists_run_of_ends pushStep (keepsDevice "d")
    (loggedIn [⟨"d", "", 1, "", "", "", ""⟩]) [.call "d", go 0 3 false, go 0 3 true]
    (fun history m =>
      issuedKey "d" history = some "3333333333" ∧ m.checkPush "d" "3333333333" = false)
    (guarded_of_passes (fun _ _ event => !event.renews "d") (fun _ _ _ h hr => by simp [hr] at h)
      (by decide +kernel)) (by decide +kernel)
  obtain ⟨hissued, hrefused⟩ := of_decide_eq_true ht
  have hallowed := hall _ "d" history m "3333333333" run hissued
  rw [hrefused] at hallowed
  cases hallowed

end VideoAdapter.Adapter

import VideoAdapter.Adapter.Push.Moves

namespace VideoAdapter.Adapter

open Lib PushClient

-- The device record a call holds a pointer to.
def PushPc.pItem : PushPc → Option Nat
  | .send p => some p
  | .refresh p _ _ => some p
  | .poll p _ _ _ => some p
  | .store p _ _ => some p
  | _ => none

-- The device table only leads to live records of the right device. A pointer held by a
-- call may be dangling, but it never leads to another device.
structure Linked (m : PushClient) : Prop where
  devlist : ∀ (pid : String) (p : Nat), m.devlist[pid]? = some p →
    ∃ node, m.node p = some node ∧ node.pid = pid
  length : ∀ (i : Nat) (call : PushCall) (p : Nat), m.calls[i]? = some call →
    call.pc.pItem = some p → p < m.nodes.length
  calls : ∀ (i : Nat) (call : PushCall) (p : Nat) (node : DeviceNode), m.calls[i]? = some call →
    call.pc.pItem = some p → m.node p = some node → node.pid = call.devid

variable {m after : PushClient} {i : Nat} {call : PushCall} {pc : PushPc} {p q : Nat}
  {node : DeviceNode} {event : PushEvent} {out : List PushOutput}

theorem lt_length_of_node (h : m.node p = some node) : p < m.nodes.length := by
  unfold PushClient.node at h
  by_contra hp
  rw [List.getElem?_eq_none (by omega)] at h
  cases h

theorem node_set (hp : p < m.nodes.length) (cell : Option DeviceNode)
    (h : after.nodes = m.nodes.set p cell) : after.node q = if p = q then cell else m.node q := by
  unfold PushClient.node
  rw [h]
  by_cases hq : p = q
  · subst hq
    simp [hp]
  · simp [hq]

theorem node_append (cell : Option DeviceNode) (h : after.nodes = m.nodes ++ [cell]) :
    after.node q = if q = m.nodes.length then cell else m.node q := by
  unfold PushClient.node
  rw [h]
  split
  · rename_i hq
    simp [hq]
  · rename_i hq
    rcases Nat.lt_or_gt_of_ne hq with hlt | hgt
    · rw [List.getElem?_append_left hlt]
    · rw [List.getElem?_eq_none (by simp; omega), List.getElem?_eq_none (by omega)]

theorem node_addCamera (m : PushClient) (pid name : String) (allday : Int) (s0 e0 s1 e1 : String)
    (q : Nat) : (m.addCamera pid name allday s0 e0 s1 e1).node q =
      if q = m.nodes.length then some (newCamera pid name allday s0 e0 s1 e1) else m.node q :=
  node_append _ rfl

theorem devlist_addCamera (m : PushClient) (pid name : String) (allday : Int)
    (s0 e0 s1 e1 : String) (x : String) :
    (m.addCamera pid name allday s0 e0 s1 e1).devlist[x]? =
      if pid = x then some m.nodes.length else m.devlist[x]? := by
  simp [PushClient.addCamera, Std.ExtTreeMap.getElem?_insert]

-- Two devices have two records.
theorem Linked.ne_of_devid (hv : Linked m) {pid pid' : String}
    (hp : m.devlist[pid]? = some p) (hq : m.devlist[pid']? = some q) (hne : pid ≠ pid') :
    p ≠ q := by
  rintro rfl
  obtain ⟨node, hn, hpid⟩ := hv.devlist pid p hp
  obtain ⟨node', hn', hpid'⟩ := hv.devlist pid' p hq
  rw [hn] at hn'
  cases hn'
  exact hne (hpid.symm.trans hpid')

-- Records are rewritten without a change of device, and no call takes up a new pointer.
theorem Linked.rewritten (hv : Linked m) (hdevlist : after.devlist = m.devlist)
    (hlength : after.nodes.length = m.nodes.length)
    (hnode : ∀ p, ∃ f : DeviceNode → DeviceNode, (∀ node, (f node).pid = node.pid) ∧
      after.node p = (m.node p).map f)
    (hcalls : ∀ (j : Nat) (callj : PushCall) (p : Nat), after.calls[j]? = some callj →
      callj.pc.pItem = some p → ∃ old : PushCall, m.calls[j]? = some old ∧ old.devid = callj.devid ∧
        (old.pc.pItem = some p ∨ m.devlist[old.devid]? = some p)) :
    Linked after := by
  -- the pointer is an old one, or fresh from the table
  have hold : ∀ (j : Nat) (callj : PushCall) (p : Nat), after.calls[j]? = some callj →
      callj.pc.pItem = some p →
      p < m.nodes.length ∧ ∀ node, m.node p = some node → node.pid = callj.devid := by
    intro j callj p hj hp
    obtain ⟨old, ho, hd, hp | hp⟩ := hcalls j callj p hj hp
    · exact ⟨hv.length j old p ho hp, fun node hn => hd ▸ hv.calls j old p node ho hp hn⟩
    · obtain ⟨node, hn, hpid⟩ := hv.devlist _ p hp
      refine ⟨lt_length_of_node hn, fun node' hn' => ?_⟩
      rw [hn] at hn'
      cases hn'
      exact hpid.trans hd
  refine ⟨?_, ?_, ?_⟩
  · intro pid p hp
    rw [hdevlist] at hp
    obtain ⟨node, hn, hpid⟩ := hv.devlist pid p hp
    obtain ⟨f, hf, hafter⟩ := hnode p
    exact ⟨f node, by rw [hafter, hn]; rfl, (hf node).trans hpid⟩
  · intro j callj p hj hp
    rw [hlength]
    exact (hold j callj p hj hp).1
  · intro j callj p node hj hp hn
    obtain ⟨f, hf, hafter⟩ := hnode p
    rw [hafter] at hn
    obtain ⟨node', hn', rfl⟩ := Option.map_eq_some_iff.mp hn
    exact (hf node').trans ((hold j callj p hj hp).2 node' hn')

theorem Linked.addCamera (hv : Linked m) (pid name : String) (allday : Int)
    (s0 e0 s1 e1 : String) : Linked (m.addCamera pid name allday s0 e0 s1 e1) := by
  refine ⟨?_, ?_, ?_⟩
  · intro pid' p hp
    rw [devlist_addCamera] at hp
    rw [node_addCamera]
    split at hp
    · rename_i hpid
      cases hp
      exact ⟨_, if_pos rfl, (newCamera_pid ..).trans hpid⟩
    · obtain ⟨node, hn, hpid'⟩ := hv.devlist pid' p hp
      rw [if_neg (Nat.ne_of_lt (lt_length_of_node hn))]
      exact ⟨node, hn, hpid'⟩
  · intro j callj p hj hp
    have hlt := hv.length j callj p hj hp
    simp only [PushClient.addCamera, List.length_append]
    omega
  · intro j callj p node hj hp hn
    rw [node_addCamera, if_neg (Nat.ne_of_lt (hv.length j callj p hj hp))] at hn
    exact hv.calls j callj p node hj hp hn

theorem Linked.delCamera (hv : Linked m) {pid : String} (hp : m.devlist[pid]? = some p) :
    Linked { m with nodes := m.nodes.set p none, devlist := m.devlist.erase pid } := by
  obtain ⟨record, hrecord, -⟩ := hv.devlist pid p hp
  have hnode : ∀ q, PushClient.node
      { m with nodes := m.nodes.set p none, devlist := m.devlist.erase pid } q =
      if p = q then none else m.node q :=
    fun q => node_set (lt_length_of_node hrecord) none rfl
  refine ⟨?_, ?_, ?_⟩
  · intro pid' q hq
    have hq : (m.devlist.erase pid)[pid']? = some q := hq
    rw [Std.ExtTreeMap.getElem?_erase] at hq
    split at hq
    · cases hq
    · rename_i hne
      obtain ⟨node, hn, hpid'⟩ := hv.devlist pid' q hq
      have hpq : p ≠ q := hv.ne_of_devid hp hq (by simpa using hne)
      rw [hnode, if_neg hpq]
      exact ⟨node, hn, hpid'⟩
  · intro j callj q hj hq
    simpa using hv.length j callj q hj hq
  · intro j callj q node hj hq hn
    rw [hnode] at hn
    split at hn
    · cases hn
    · exact hv.calls j callj q node hj hq hn

-- A call goes on with the pointer it has, or with the one the table gives for its device.
theorem Linked.goto (hv : Linked m) {mid : PushClient} (hdevlist : mid.devlist = m.devlist)
    (hlength : mid.nodes.length = m.nodes.length)
    (hnode : ∀ p, ∃ f : DeviceNode → DeviceNode, (∀ node, (f node).pid = node.pid) ∧
      mid.node p = (m.node p).map f)
    (hcalls : mid.calls = m.calls) (hc : m.calls[i]? = some call)
    (hp : ∀ p, pc.pItem = some p →
      call.pc.pItem = some p ∨ m.devlist[call.devid]? = some p) :
    Linked (mid.goto i pc) := by
  refine hv.rewritten hdevlist hlength hnode fun j callj p hj hpj => ?_
  rw [calls_goto mid i j pc (hcalls ▸ hc)] at hj
  split at hj
  · rename_i hji
    cases hj
    exact ⟨call, hji ▸ hc, rfl, hp p hpj⟩
  · exact ⟨callj, hcalls ▸ hj, rfl, .inl hpj⟩

theorem Linked.move (hv : Linked m) {env : PushStepEnv} (hc : m.calls[i]? = some call)
    (move : PushMove m i call.devid env call.pc after out) : Linked after := by
  have hid : ∀ p, ∃ f : DeviceNode → DeviceNode, (∀ node, (f node).pid = node.pid) ∧
      m.node p = (m.node p).map f := fun p => ⟨id, fun _ => rfl, by simp⟩
  obtain ⟨devid, pc⟩ := call
  cases move with
  | unknown | pushing | lost | timeout | refused =>
      exact hv.goto rfl rfl hid rfl hc (fun _ h => by cases h)
  | found p pItem hd hn h2 =>
      exact hv.goto rfl rfl hid rfl hc (fun _ h => .inr (by cases h; exact hd))
  | sent | refreshed => exact hv.goto rfl rfl hid rfl hc (fun _ h => .inl h)
  | waiting => exact hv
  | taken => exact hv.goto rfl rfl hid rfl hc (fun _ h => .inl h)
  | stored p push_key resp pItem hn =>
      refine hv.goto rfl (by simp) (fun q => ?_) rfl hc (fun _ h => by cases h)
      rw [node_set (lt_length_of_node hn) _ rfl]
      split
      · rename_i hq
        exact ⟨fun node => node.pushing resp.token push_key, fun _ => rfl, by rw [← hq, hn]; rfl⟩
      · exact hid q

-- The calls, their pointers and the table are as before.
theorem Linked.congr (hv : Linked m) (hdevlist : after.devlist = m.devlist)
    (hnodes : after.nodes = m.nodes) (hcalls : after.calls = m.calls) : Linked after := by
  refine hv.rewritten hdevlist (by rw [hnodes]) (fun p => ?_) (fun j callj p hj hp => ?_)
  · exact ⟨id, fun _ => rfl, by simp [PushClient.node, hnodes]⟩
  · exact ⟨callj, hcalls ▸ hj, rfl, .inl hp⟩

theorem Linked.of_rewritten (hv : Linked m) (h : Rewritten m after) : Linked after := by
  refine hv.rewritten h.devlist h.length (fun p => ?_) (fun j callj p hj hp => ?_)
  · obtain ⟨f, hpid, -, hf⟩ := h.node p
    exact ⟨f, hpid, hf⟩
  · exact ⟨callj, h.calls ▸ hj, rfl, .inl hp⟩

theorem Linked.step (hv : Linked m) (hs : pushStep m event = some (after, out)) : Linked after := by
  cases pushStep_cases hs with
  | call devid =>
      refine ⟨hv.devlist, fun j callj p hj hp => ?_, fun j callj p node hj hp hn => ?_⟩
      · rcases calls_call m j hj with hj | hpc
        · exact hv.length j callj p hj hp
        · simp [hpc, PushPc.pItem] at hp
      · rcases calls_call m j hj with hj | hpc
        · exact hv.calls j callj p node hj hp hn
        · simp [hpc, PushPc.pItem] at hp
  | advance i env call after out hc move => exact hv.move hc move
  | answer r body tick request hr hopen => exact hv.congr (by simp) (by simp) (by simp)
  | mail cmd seq body tick => exact hv.congr (by simp) (by simp) (by simp)
  | table event after move =>
      cases move with
      | rewritten h => exact hv.of_rewritten h
      | absent => exact hv
      | added pid name allday s0 e0 s1 e1 => exact hv.addCamera pid name allday s0 e0 s1 e1
      | deleted pid p hp => exact hv.delCamera hp

theorem linked_loggedIn (rows : List TBDeviceEx) : Linked (loggedIn rows) :=
  loggedIn_induction _ ⟨by simp, by simp, by simp⟩
    (fun _ pid name allday s0 e0 s1 e1 hm => hm.addCamera pid name allday s0 e0 s1 e1) rows

theorem linked_run {guard : PushHistory → PushClient → PushEvent → Prop} {rows : List TBDeviceEx}
    {history : PushHistory} (hrun : Run pushStep guard (loggedIn rows) history m) : Linked m := by
  refine hrun.invariant (fun _ m => Linked m) (linked_loggedIn rows) ?_
  intro history before event after out hv _ hs
  exact hv.step hs

-- One step of a call, in a second with these draws.
def go (call : Nat) (draw : Nat) (sent : Bool) : PushEvent := .advance call ⟨fun _ => draw, sent, 0⟩

def reply (request : Nat) (token : String) : PushEvent :=
  .answer request (RespPush.encode ⟨100, token⟩) 0

end VideoAdapter.Adapter

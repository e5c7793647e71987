import VideoAdapter.Adapter.Push.Pointers

namespace VideoAdapter.Adapter

open Lib PushClient

-- The device table as a search reaches it.
def PushClient.table (m : PushClient) : DevList := m.devlist.filterMap fun _ p => m.node p

-- What an event that is not a step of a call does to a table without pointers.
def PushEvent.onTable (devlist : DevList) : PushEvent → Option DevList
  | .call _ => some devlist
  | .answer _ _ _ => some devlist
  | .receive cmd _ body _ =>
      if cmd = UPDATE_CHANGE then handleUpdateChange devlist body else some devlist
  | .addCamera pid name allday s0 e0 s1 e1 =>
      some (Adapter.addCamera devlist pid name allday s0 e0 s1 e1)
  | .delCamera pid => some (Adapter.delCamera devlist pid)
  | .modifyCamera pid allday s0 e0 s1 e1 =>
      some (Adapter.modifyCamera devlist pid allday s0 e0 s1 e1)
  | .checkState outside => some (Adapter.stopDue outside devlist)
  | .advance _ _ => none
  | .stopAnswered _ => none

def PushOutput.frame : PushOutput → Option Outgoing
  | .sent frame => some frame
  | _ => none

def sentFrames (history : PushHistory) : List Outgoing :=
  history.flatMap fun entry => entry.2.filterMap PushOutput.frame

-- Only this call moves, while answers and other messages come in.
def onlyCall (i : Nat) (_ : PushHistory) (_ : PushClient) : PushEvent → Prop
  | .advance j _ => j = i
  | .answer _ _ _ => True
  | .receive cmd _ _ _ => cmd ≠ UPDATE_CHANGE
  | _ => False

variable {start m after : PushClient} {i p : Nat} {devid : String} {pc : PushPc}
  {sent : List Outgoing} {event : PushEvent} {out : List PushOutput} {env : PushStepEnv}
  {history : PushHistory}

theorem getElem?_table (m : PushClient) (pid : String) : m.table[pid]? = m.device pid := by
  simp [PushClient.table, PushClient.device]

theorem table_congr (hdevlist : after.devlist = m.devlist) (hnodes : after.nodes = m.nodes) :
    after.table = m.table := by
  simp only [PushClient.table, PushClient.node, hdevlist, hnodes]

theorem Linked.table_set (hv : Linked m) {record : DeviceNode} (hp : m.devlist[devid]? = some p)
    (hdevlist : after.devlist = m.devlist) (hnodes : after.nodes = m.nodes.set p (some record)) :
    after.table = m.table.insert devid record := by
  obtain ⟨node, hn, -⟩ := hv.devlist devid p hp
  apply Std.ExtTreeMap.ext_getElem?
  intro pid
  rw [getElem?_table, Std.ExtTreeMap.getElem?_insert, getElem?_table]
  simp only [PushClient.device, hdevlist, Std.compare_eq_iff_eq]
  by_cases hd : devid = pid
  · subst hd
    rw [hp, Option.bind_some, node_set (lt_length_of_node hn) _ hnodes, if_pos rfl, if_pos rfl]
  · rw [if_neg hd]
    cases hq : m.devlist[pid]? with
    | none => rfl
    | some q =>
        rw [Option.bind_some, Option.bind_some, node_set (lt_length_of_node hn) _ hnodes,
          if_neg (hv.ne_of_devid hp hq hd)]

theorem checkPush_table (m : PushClient) (pid key : String) :
    m.checkPush pid key = Adapter.checkPush m.table pid key := by
  cases hd : m.device pid with
  | none => simp only [PushClient.checkPush, Adapter.checkPush, getElem?_table, hd]
  | some node => simp only [PushClient.checkPush, Adapter.checkPush, getElem?_table, hd]

theorem Linked.table_addCamera (hv : Linked m) (pid name : String) (allday : Int)
    (s0 e0 s1 e1 : String) :
    (m.addCamera pid name allday s0 e0 s1 e1).table =
      Adapter.addCamera m.table pid name allday s0 e0 s1 e1 := by
  apply Std.ExtTreeMap.ext_getElem?
  intro x
  unfold Adapter.addCamera
  rw [Std.ExtTreeMap.getElem?_insert, getElem?_table, getElem?_table]
  simp only [PushClient.device, devlist_addCamera, Std.compare_eq_iff_eq]
  by_cases hx : pid = x
  · rw [if_pos hx, if_pos hx, Option.bind_some, node_addCamera, if_pos rfl]
  · rw [if_neg hx, if_neg hx]
    cases hq : m.devlist[x]? with
    | none => rfl
    | some q =>
        obtain ⟨record, hrecord, -⟩ := hv.devlist x q hq
        rw [Option.bind_some, Option.bind_some, node_addCamera,
          if_neg (Nat.ne_of_lt (lt_length_of_node hrecord))]

theorem table_loggedIn (rows : List TBDeviceEx) : (loggedIn rows).table = loadRows rows := by
  have hfold : ∀ (rows : List TBDeviceEx) (m : PushClient), Linked m →
      (rows.foldl (fun m r => m.addCamera r.pid r.name r.allday r.s0 r.e0 r.s1 r.e1) m).table =
        rows.foldl (fun devlist r => Adapter.addCamera devlist r.pid r.name r.allday r.s0 r.e0
          r.s1 r.e1) m.table := by
    intro rows
    induction rows with
    | nil => exact fun m _ => rfl
    | cons r rest ih =>
        intro m hv
        rw [List.foldl_cons, List.foldl_cons, ih _ (hv.addCamera ..), hv.table_addCamera]
  have hempty : PushClient.table {} = ∅ := by
    apply Std.ExtTreeMap.ext_getElem?
    intro x
    simp [getElem?_table, PushClient.device]
  unfold loggedIn loadRows
  rw [hfold rows {} (linked_loggedIn []), hempty]

theorem Linked.table_delCamera (hv : Linked m) (pid : String) :
    (m.delCamera pid).table = Adapter.delCamera m.table pid := by
  apply Std.ExtTreeMap.ext_getElem?
  intro x
  simp only [Adapter.delCamera, Std.ExtTreeMap.getElem?_erase, Std.compare_eq_iff_eq, getElem?_table]
  unfold PushClient.delCamera
  cases hp : m.devlist[pid]? with
  | none =>
      by_cases hx : pid = x
      · simp [PushClient.device, ← hx, hp]
      · rw [if_neg hx]
  | some p =>
      obtain ⟨record, hrecord, -⟩ := hv.devlist pid p hp
      by_cases hx : pid = x
      · simp [PushClient.device, hx]
      · simp only [PushClient.device, Std.ExtTreeMap.getElem?_erase, Std.compare_eq_iff_eq, hx,
          if_false]
        cases hq : m.devlist[x]? with
        | none => rfl
        | some q =>
            rw [Option.bind_some, Option.bind_some, node_set (lt_length_of_node hrecord) none rfl,
              if_neg (hv.ne_of_devid hp hq hx)]

-- A write through the pointer of a device is a write to its entry.
theorem Linked.table_modifyNode (hv : Linked m) {pid : String} (hp : m.devlist[pid]? = some p)
    (f : DeviceNode → DeviceNode) : (m.modifyNode p f).table = m.table.modify pid f := by
  apply Std.ExtTreeMap.ext_getElem?
  intro x
  simp only [Std.ExtTreeMap.getElem?_modify, Std.compare_eq_iff_eq, getElem?_table]
  by_cases hx : pid = x
  · subst hx
    simp [PushClient.device, show (m.modifyNode p f).devlist = m.devlist from rfl, hp,
      node_modifyNode]
  · simp only [PushClient.device, show (m.modifyNode p f).devlist = m.devlist from rfl, hx, if_false]
    cases hq : m.devlist[x]? with
    | none => rfl
    | some q => simp [node_modifyNode, hv.ne_of_devid hp hq hx]

-- A device that the table does not have.
theorem modify_table_of_none {pid : String} (hp : m.devlist[pid]? = none)
    (f : DeviceNode → DeviceNode) : m.table.modify pid f = m.table := by
  apply Std.ExtTreeMap.ext_getElem?
  intro x
  simp only [Std.ExtTreeMap.getElem?_modify, Std.compare_eq_iff_eq, getElem?_table]
  by_cases hx : pid = x
  · simp [PushClient.device, ← hx, hp]
  · rw [if_neg hx]

theorem Linked.table_modifyCamera (hv : Linked m) (pid : String) (allday : Int)
    (s0 e0 s1 e1 : String) :
    (m.modifyCamera pid allday s0 e0 s1 e1).table =
      Adapter.modifyCamera m.table pid allday s0 e0 s1 e1 := by
  unfold PushClient.modifyCamera Adapter.modifyCamera
  cases hp : m.devlist[pid]? with
  | none => exact (modify_table_of_none hp _).symm
  | some p => exact hv.table_modifyNode hp _

theorem Linked.table_setState (hv : Linked m) (item : StateItem) :
    (m.setState item).table = Adapter.setState m.table item := by
  unfold PushClient.setState Adapter.setState
  cases hp : m.devlist[item.pid]? with
  | none => exact (modify_table_of_none hp _).symm
  | some p => exact hv.table_modifyNode hp _

theorem Linked.setState (hv : Linked m) (item : StateItem) : Linked (m.setState item) :=
  hv.of_rewritten (setState_rewritten m item)

theorem Linked.table_foldl_setState (items : List StateItem) (hv : Linked m) :
    (items.foldl PushClient.setState m).table = items.foldl Adapter.setState m.table := by
  induction items generalizing m with
  | nil => rfl
  | cons item rest ih =>
      rw [List.foldl_cons, List.foldl_cons, ih (hv.setState item), hv.table_setState item]

theorem mem_values {β : Type} {t : Std.ExtTreeMap String β} {k : String} {v : β}
    (h : t[k]? = some v) : v ∈ t.values := by
  have hvalues : t.values = t.toList.map Prod.snd := by
    rw [show t.values = t.foldr (fun _ v l => v :: l) [] from rfl,
      Std.ExtTreeMap.foldr_eq_foldr_toList]
    induction t.toList with
    | nil => rfl
    | cons entry rest ih => simp [ih]
  rw [hvalues]
  exact List.mem_map.mpr ⟨(k, v), Std.ExtTreeMap.mem_toList_iff_getElem?_eq_some.mpr h, rfl⟩

theorem table_stopDue (m : PushClient) (outside : DeviceNode → Bool) :
    (m.stopDue outside).table = Adapter.stopDue outside m.table := by
  apply Std.ExtTreeMap.ext_getElem?
  intro x
  unfold Adapter.stopDue
  rw [Std.ExtTreeMap.getElem?_map, getElem?_table, getElem?_table]
  unfold PushClient.device
  rw [show (m.stopDue outside).devlist = m.devlist from rfl]
  cases hp : m.devlist[x]? with
  | none => rfl
  | some p =>
      have hmem := mem_values hp
      rw [Option.bind_some, Option.bind_some]
      unfold PushClient.stopDue PushClient.node
      cases hcell : m.nodes[p]? with
      | none => simp [hcell]
      | some cell => simp [hcell, hmem]

theorem Linked.table_receive (hv : Linked m) {cmd seq : Int} {body : Bytes} {tick : UInt64}
    (h : m.receive cmd seq body tick = some after) :
    (PushEvent.receive cmd seq body tick).onTable m.table = some after.table := by
  unfold PushClient.receive at h
  simp only [PushEvent.onTable]
  split at h
  · rename_i halive
    cases h
    exact if_neg (by rw [halive]; decide)
  · split at h
    · rename_i hupdate
      rw [if_pos hupdate]
      unfold PushClient.handleUpdateChange at h
      unfold Adapter.handleUpdateChange
      split at h
      · cases h
      · rename_i hsize
        cases h
        rw [if_neg hsize, hv.table_foldl_setState]
    · rename_i hupdate
      cases h
      rw [if_neg hupdate, table_congr (devlist_insertMsg ..) (nodes_insertMsg ..)]

-- The table behind the pointers moves as the table of the server model does.
theorem table_refines (hv : Linked m) (hs : pushStep m event = some (after, out))
    (hadvance : ∀ i env, event ≠ .advance i env) (hstop : ∀ p, event ≠ .stopAnswered p) :
    event.onTable m.table = some after.table := by
  cases event with
  | call devid =>
      cases hs
      rfl
  | advance i env => exact absurd rfl (hadvance i env)
  | answer r body tick =>
      obtain ⟨next, hn, he⟩ := Option.map_eq_some_iff.mp hs
      cases he
      obtain ⟨request, -, -, rfl⟩ := answer_eq_some hn
      exact congrArg some (table_congr (by simp) (by simp)).symm
  | receive cmd seq body tick =>
      obtain ⟨next, hn, he⟩ := Option.map_eq_some_iff.mp hs
      cases he
      exact hv.table_receive hn
  | addCamera pid name allday s0 e0 s1 e1 =>
      cases hs
      exact congrArg some (hv.table_addCamera pid name allday s0 e0 s1 e1).symm
  | delCamera pid =>
      cases hs
      exact congrArg some (hv.table_delCamera pid).symm
  | modifyCamera pid allday s0 e0 s1 e1 =>
      cases hs
      exact congrArg some (hv.table_modifyCamera pid allday s0 e0 s1 e1).symm
  | stopAnswered p => exact absurd rfl (hstop p)
  | checkState outside =>
      cases hs
      exact congrArg some (table_stopDue m outside).symm

-- The record that the call has found, in a table as it was at the start.
structure Found (start m : PushClient) (devid : String) (p : Nat) : Prop where
  table : m.table = start.table
  listed : m.devlist[devid]? = some p
  idle : ∀ pItem, m.node p = some pItem → pItem.state ≠ 2

-- What a call that runs alone has done when it stands at a point.
def Alone (start m : PushClient) (devid : String) (sent : List Outgoing) : PushPc → Prop
  | .lookup => sent = [] ∧ m.table = start.table
  | .send p => sent = [] ∧ Found start m devid p
  | .refresh p _ push_key => Found start m devid p ∧
      ∃ draws, sent = [pushRequest devid draws] ∧ push_key = generalToken draws 10
  | .poll p _ push_key _ => Found start m devid p ∧
      ∃ draws, sent = [pushRequest devid draws] ∧ push_key = generalToken draws 10
  | .store p push_key resp => Found start m devid p ∧ resp.result = 100 ∧
      (∃ body, resp = RespPush.decode body) ∧
      ∃ draws, sent = [pushRequest devid draws] ∧ push_key = generalToken draws 10
  | .done res _ => ∃ env, notifyPush start.table devid env = (res, m.table, sent)

-- The device table is not touched.
theorem Alone.congr (h : Alone start m devid sent pc) (hdevlist : after.devlist = m.devlist)
    (hnodes : after.nodes = m.nodes) : Alone start after devid sent pc := by
  have htable := table_congr hdevlist hnodes
  have hfound : ∀ p, Found start m devid p → Found start after devid p := by
    intro p hf
    refine ⟨htable.trans hf.table, hdevlist ▸ hf.listed, ?_⟩
    simpa only [PushClient.node, hnodes] using hf.idle
  cases pc with
  | lookup => exact ⟨h.1, htable.trans h.2⟩
  | send p => exact ⟨h.1, hfound p h.2⟩
  | refresh p seq push_key => exact ⟨hfound p h.1, h.2⟩
  | poll p seq push_key cur => exact ⟨hfound p h.1, h.2⟩
  | store p push_key resp => exact ⟨hfound p h.1, h.2⟩
  | done res stored =>
      obtain ⟨env, he⟩ := h
      exact ⟨env, htable ▸ he⟩

theorem Found.record (h : Found start m devid p) (hv : Linked m) :
    ∃ pItem, start.table[devid]? = some pItem ∧ m.node p = some pItem ∧ pItem.state ≠ 2 := by
  obtain ⟨pItem, hn, -⟩ := hv.devlist devid p h.listed
  refine ⟨pItem, ?_, hn, h.idle pItem hn⟩
  rw [← h.table, getElem?_table, PushClient.device, h.listed, Option.bind_some, hn]

section Sequential

-- `NotifyPush` on a device that was found and is not pushing.
variable {devlist : DevList} {pItem : DeviceNode}

theorem notifyPush_lost (hd : devlist[devid]? = some pItem) (h2 : pItem.state ≠ 2)
    (draws : Nat → Nat) : notifyPush devlist devid ⟨draws, false, none⟩ =
      ({ ret := -1, result := "network error!", lost := true }, devlist, []) := by
  simp [notifyPush, hd, h2]

theorem notifyPush_timeout (hd : devlist[devid]? = some pItem) (h2 : pItem.state ≠ 2)
    (draws : Nat → Nat) : notifyPush devlist devid ⟨draws, true, none⟩ =
      ({ ret := -1, result := "notify to start push time out!" }, devlist,
        [pushRequest devid draws]) := by
  simp [notifyPush, hd, h2]

theorem notifyPush_refused (hd : devlist[devid]? = some pItem) (h2 : pItem.state ≠ 2)
    (draws : Nat → Nat) {body : Bytes} (h100 : (RespPush.decode body).result ≠ 100) :
    notifyPush devlist devid ⟨draws, true, some body⟩ =
      ({ ret := -1, result := pushError (RespPush.decode body).result }, devlist,
        [pushRequest devid draws]) := by
  simp [notifyPush, hd, h2, h100]

theorem notifyPush_answered (hd : devlist[devid]? = some pItem) (h2 : pItem.state ≠ 2)
    (draws : Nat → Nat) {body : Bytes} (h100 : (RespPush.decode body).result = 100) :
    notifyPush devlist devid ⟨draws, true, some body⟩ =
      ({ ret := 0, result := "success!", token := (RespPush.decode body).token },
        devlist.insert devid (pItem.pushing (RespPush.decode body).token (generalToken draws 10)),
        [pushRequest devid draws]) := by
  simp [notifyPush, hd, h2, h100]

end Sequential

theorem Alone.move (h : Alone start m devid sent pc) (hv : Linked m)
    (hc : m.calls[i]? = some ⟨devid, pc⟩) (move : PushMove m i devid env pc after out) :
    ∃ pc', after.calls[i]? = some ⟨devid, pc'⟩ ∧
      Alone start after devid (out.filterMap PushOutput.frame ++ sent) pc' := by
  have hgoto : ∀ (mid : PushClient) (pc' : PushPc), mid.calls = m.calls →
      (mid.goto i pc').calls[i]? = some ⟨devid, pc'⟩ := by
    intro mid pc' hcalls
    rw [calls_goto mid i i pc' (hcalls ▸ hc), if_pos rfl]
  cases move with
  | unknown hd =>
      obtain ⟨rfl, ht⟩ := h
      refine ⟨_, hgoto m _ rfl, ⟨fun _ => 0, false, none⟩, ?_⟩
      have hnone : start.table[devid]? = none := by
        rw [← ht, getElem?_table, PushClient.device, hd]
        rfl
      simp only [Adapter.notifyPush, hnone]
      exact congrArg (_, ·, _) ht.symm
  | pushing q pItem hd hn h2 =>
      obtain ⟨rfl, ht⟩ := h
      refine ⟨_, hgoto m _ rfl, ⟨fun _ => 0, false, none⟩, ?_⟩
      have hsome : start.table[devid]? = some pItem := by
        rw [← ht, getElem?_table, PushClient.device, hd, Option.bind_some, hn]
      simp only [Adapter.notifyPush, hsome, h2, if_true]
      exact congrArg (_, ·, _) ht.symm
  | found q pItem hd hn h2 =>
      obtain ⟨rfl, ht⟩ := h
      refine ⟨_, hgoto m _ rfl, rfl, ht, hd, fun pItem' hn' => ?_⟩
      have he : m.node q = some pItem' := hn'
      rw [hn] at he
      cases he
      exact h2
  | sent q hs =>
      obtain ⟨rfl, hf⟩ := h
      exact ⟨_, hgoto _ _ rfl, ⟨hf.table, hf.listed, hf.idle⟩, env.draws, rfl, rfl⟩
  | lost q hs =>
      obtain ⟨rfl, hf⟩ := h
      obtain ⟨pItem, hd, -, h2⟩ := hf.record hv
      refine ⟨_, hgoto m _ rfl, ⟨fun _ => 0, false, none⟩, ?_⟩
      rw [notifyPush_lost hd h2]
      exact congrArg (_, ·, _) hf.table.symm
  | refreshed q seq push_key =>
      obtain ⟨hf, hsent⟩ := h
      exact ⟨_, hgoto _ _ rfl, ⟨hf.table, hf.listed, hf.idle⟩, hsent⟩
  | timeout q seq push_key cur =>
      obtain ⟨hf, draws, rfl, -⟩ := h
      obtain ⟨pItem, hd, -, h2⟩ := hf.record hv
      refine ⟨_, hgoto m _ rfl, ⟨draws, true, none⟩, ?_⟩
      rw [notifyPush_timeout hd h2]
      exact congrArg (_, ·, _) hf.table.symm
  | waiting q seq push_key cur => exact ⟨_, hc, h⟩
  | taken q seq push_key cur pNode hm h100 =>
      obtain ⟨hf, hsent⟩ := h
      exact ⟨_, hgoto _ _ rfl, ⟨hf.table, hf.listed, hf.idle⟩, h100, ⟨pNode.buf, rfl⟩, hsent⟩
  | refused q seq push_key cur pNode hm h100 =>
      obtain ⟨hf, draws, rfl, -⟩ := h
      obtain ⟨pItem, hd, -, h2⟩ := hf.record hv
      refine ⟨_, hgoto { m with msglist := m.msglist.eraseP (isAnswer seq) } _ rfl,
        ⟨draws, true, some pNode.buf⟩, ?_⟩
      rw [notifyPush_refused hd h2 draws h100]
      exact congrArg (_, ·, _) hf.table.symm
  | stored q push_key resp pItem hn =>
      obtain ⟨hf, h100, ⟨body, rfl⟩, draws, rfl, rfl⟩ := h
      obtain ⟨record, hd, hrecord, h2⟩ := hf.record hv
      rw [hn] at hrecord
      cases hrecord
      have htable : PushClient.table { m with nodes := m.nodes.set q (some (pItem.pushing
          (RespPush.decode body).token (generalToken draws 10))) } = m.table.insert devid
            (pItem.pushing (RespPush.decode body).token (generalToken draws 10)) :=
        hv.table_set hf.listed rfl rfl
      refine ⟨_, hgoto { m with nodes := _ } _ rfl, ⟨draws, true, some body⟩, ?_⟩
      rw [notifyPush_answered hd h2 draws h100, ← hf.table]
      exact congrArg (_, ·, _) htable.symm

theorem Alone.step (h : Alone start m devid sent pc) (hv : Linked m)
    (hc : m.calls[i]? = some ⟨devid, pc⟩) (hguard : onlyCall i history m event)
    (hs : pushStep m event = some (after, out)) :
    ∃ pc', after.calls[i]? = some ⟨devid, pc'⟩ ∧
      Alone start after devid (out.filterMap PushOutput.frame ++ sent) pc' := by
  cases event with
  | advance j env =>
      obtain rfl : j = i := hguard
      obtain ⟨call, hcall, move⟩ := advance_move hs
      rw [hc] at hcall
      cases hcall
      exact h.move hv hc move
  | answer r body tick =>
      obtain ⟨next, hn, he⟩ := Option.map_eq_some_iff.mp hs
      cases he
      obtain ⟨request, -, -, rfl⟩ := answer_eq_some hn
      exact ⟨pc, by simpa using hc, h.congr (by simp) (by simp)⟩
  | receive cmd seq body tick =>
      obtain ⟨next, hn, he⟩ := Option.map_eq_some_iff.mp hs
      cases he
      unfold PushClient.receive at hn
      rw [if_neg (show cmd ≠ UPDATE_CHANGE from hguard)] at hn
      split at hn
      · cases hn
        exact ⟨pc, hc, h⟩
      · cases hn
        exact ⟨pc, by simpa using hc, h.congr (by simp) (by simp)⟩
  | _ => exact hguard.elim

-- A call that runs alone does what the sequential `NotifyPush` does for some outcome of
-- the send and of the wait: the same result, the same device table, the same frame.
theorem notifyPush_refines (hv : Linked start) (hc : start.calls[i]? = some ⟨devid, .lookup⟩)
    (hrun : Run pushStep (onlyCall i) start history m) {res : NotifyResult}
    {stored : Option RespPush} (hdone : m.calls[i]? = some ⟨devid, .done res stored⟩) :
    ∃ env, notifyPush start.table devid env = (res, m.table, sentFrames history) := by
  have hinv := hrun.invariant (fun history m => Linked m ∧ ∃ pc,
    m.calls[i]? = some ⟨devid, pc⟩ ∧ Alone start m devid (sentFrames history) pc)
    ⟨hv, .lookup, hc, rfl, rfl⟩ ?_
  · obtain ⟨-, pc, hpc, halone⟩ := hinv
    rw [hdone] at hpc
    cases hpc
    exact halone
  · rintro history before event after out ⟨hlinked, pc, hpc, halone⟩ hguard hs
    exact ⟨hlinked.step hs, halone.step hlinked hpc hguard hs⟩

end VideoAdapter.Adapter

import Mathlib.Data.List.Basic
import VideoAdapter.Adapter.Push

namespace VideoAdapter.Adapter

open Lib PushClient

abbrev PushHistory := List (PushEvent × List PushOutput)

-- The answer with result 100 that a call has taken out of the mailbox.
def PushPc.response : PushPc → Option RespPush
  | .store _ _ resp => some resp
  | .done _ stored => stored
  | _ => none

namespace PushClient

variable (m : PushClient) (i j : Nat) (pc : PushPc)

@[simp] theorem msglist_goto : (m.goto i pc).msglist = m.msglist := rfl

@[simp] theorem requests_goto : (m.goto i pc).requests = m.requests := rfl

theorem calls_goto {call : PushCall} (hc : m.calls[i]? = some call) :
    (m.goto i pc).calls[j]? = if j = i then some { call with pc } else m.calls[j]? := by
  by_cases hj : j = i
  · simp [goto, hj, hc]
  · simp [goto, hj, Ne.symm hj]

theorem calls_call {devid : String} {call : PushCall}
    (h : (m.calls ++ [⟨devid, .lookup⟩])[j]? = some call) :
    m.calls[j]? = some call ∨ call.pc = .lookup := by
  rw [List.getElem?_append] at h
  split at h
  · exact .inl h
  · rw [List.getElem?_singleton] at h
    split at h
    · cases h
      exact .inr rfl
    · cases h

@[simp] theorem nodes_insertMsg (iType seqnum : Int) (buf : Bytes) (tick : UInt64) :
    (m.insertMsg iType seqnum buf tick).nodes = m.nodes := by
  unfold insertMsg
  split <;> rfl

@[simp] theorem devlist_insertMsg (iType seqnum : Int) (buf : Bytes) (tick : UInt64) :
    (m.insertMsg iType seqnum buf tick).devlist = m.devlist := by
  unfold insertMsg
  split <;> rfl

@[simp] theorem calls_insertMsg (iType seqnum : Int) (buf : Bytes) (tick : UInt64) :
    (m.insertMsg iType seqnum buf tick).calls = m.calls := by
  unfold insertMsg
  split <;> rfl

@[simp] theorem requests_insertMsg (iType seqnum : Int) (buf : Bytes) (tick : UInt64) :
    (m.insertMsg iType seqnum buf tick).requests = m.requests := by
  unfold insertMsg
  split <;> rfl

theorem mem_insertMsg {iType seqnum : Int} {buf : Bytes} {tick : UInt64} {pNode : MessageNode}
    (h : pNode ∈ (m.insertMsg iType seqnum buf tick).msglist) :
    pNode ∈ m.msglist ∨ pNode = { iType, seqnum, timestamp := tick, buf } := by
  unfold insertMsg at h
  split at h
  · exact .inl h
  · simpa using h

end PushClient

-- Everything one step of a call can do, from each point where it can stand.
inductive PushMove (m : PushClient) (i : Nat) (devid : String) (env : PushStepEnv) :
    PushPc → PushClient → List PushOutput → Prop
  | unknown (hd : m.devlist[devid]? = none) :
      PushMove m i devid env .lookup (m.finish i { ret := -1, result := "camera id invalid!" }) []
  | pushing (p : Nat) (pItem : DeviceNode) (hd : m.devlist[devid]? = some p)
      (hn : m.node p = some pItem) (h2 : pItem.state = 2) :
      PushMove m i devid env .lookup
        (m.finish i { ret := 0, result := "success!", token := pItem.token }) []
  | found (p : Nat) (pItem : DeviceNode) (hd : m.devlist[devid]? = some p)
      (hn : m.node p = some pItem) (h2 : pItem.state ≠ 2) :
      PushMove m i devid env .lookup (m.goto i (.send p)) []
  | sent (p : Nat) (hs : env.sent = true) :
      PushMove m i devid env (.send p)
        (goto { m with requests := m.requests ++
          [⟨i, devid, generalSeqnumber env.draws, generalToken env.draws 10, none⟩] } i
            (.refresh p (generalSeqnumber env.draws) (generalToken env.draws 10)))
        [.sent (pushRequest devid env.draws)]
  | lost (p : Nat) (hs : env.sent = false) :
      PushMove m i devid env (.send p)
        (m.finish i { ret := -1, result := "network error!", lost := true }) [.delClient]
  | refreshed (p : Nat) (seq : Int) (push_key : String) :
      PushMove m i devid env (.refresh p seq push_key) (m.refresh i p seq push_key env.tick) []
  | timeout (p : Nat) (seq : Int) (push_key : String) (cur : UInt64) :
      PushMove m i devid env (.poll p seq push_key cur)
        (m.finish i { ret := -1, result := "notify to start push time out!" }) []
  | waiting (p : Nat) (seq : Int) (push_key : String) (cur : UInt64) :
      PushMove m i devid env (.poll p seq push_key cur) m []
  | taken (p : Nat) (seq : Int) (push_key : String) (cur : UInt64) (pNode : MessageNode)
      (hf : m.msglist.find? (isAnswer seq) = some pNode)
      (h100 : (RespPush.decode pNode.buf).result = 100) :
      PushMove m i devid env (.poll p seq push_key cur)
        (goto { m with msglist := m.msglist.eraseP (isAnswer seq) } i
          (.store p push_key (RespPush.decode pNode.buf))) []
  | refused (p : Nat) (seq : Int) (push_key : String) (cur : UInt64) (pNode : MessageNode)
      (hf : m.msglist.find? (isAnswer seq) = some pNode)
      (h100 : (RespPush.decode pNode.buf).result ≠ 100) :
      PushMove m i devid env (.poll p seq push_key cur)
        (finish { m with msglist := m.msglist.eraseP (isAnswer seq) } i
          { ret := -1, result := pushError (RespPush.decode pNode.buf).result }) []
  | stored (p : Nat) (push_key : String) (resp : RespPush) (pItem : DeviceNode)
      (hn : m.node p = some pItem) :
      PushMove m i devid env (.store p push_key resp)
        (goto { m with nodes := m.nodes.set p (some (pItem.pushing resp.token push_key)) } i
          (.done { ret := 0, result := "success!", token := resp.token } (some resp)))
        [.stored devid push_key]

variable {m after : PushClient} {i : Nat} {env : PushStepEnv} {out : List PushOutput}

theorem lookup_move {devid : String} (h : m.lookup i devid = some after) :
    PushMove m i devid env .lookup after [] := by
  unfold PushClient.lookup at h
  split at h
  · rename_i hd
    cases h
    exact .unknown hd
  · rename_i p hd
    obtain ⟨pItem, hn, he⟩ := Option.map_eq_some_iff.mp h
    split at he
    · rename_i h2
      subst he
      exact .pushing p pItem hd hn h2
    · rename_i h2
      subst he
      exact .found p pItem hd hn h2

theorem send_move (m : PushClient) (i : Nat) (devid : String) (p : Nat) (env : PushStepEnv) :
    PushMove m i devid env (.send p) (m.send i devid p env).1 (m.send i devid p env).2 := by
  unfold PushClient.send
  cases hs : env.sent with
  | true => simpa using PushMove.sent p hs
  | false => simpa using PushMove.lost p hs

theorem poll_move {devid : String} {p : Nat} {seq : Int} {push_key : String} {cur : UInt64}
    (h : m.poll i p seq push_key cur env.tick = some after) :
    PushMove m i devid env (.poll p seq push_key cur) after [] := by
  unfold PushClient.poll at h
  split at h
  · cases h
    exact .timeout p seq push_key cur
  · split at h
    · cases h
      exact .waiting p seq push_key cur
    · rename_i pNode hf
      split at h
      · cases h
      · dsimp only at h
        split at h
        · rename_i h100
          cases h
          exact .taken p seq push_key cur pNode hf h100
        · rename_i h100
          cases h
          exact .refused p seq push_key cur pNode hf h100

theorem advance_move (h : m.advance i env = some (after, out)) :
    ∃ call, m.calls[i]? = some call ∧ PushMove m i call.devid env call.pc after out := by
  unfold PushClient.advance at h
  split at h
  · cases h
  · rename_i call hc
    refine ⟨call, hc, ?_⟩
    split at h
    · rename_i hpc
      obtain ⟨next, hn, he⟩ := Option.map_eq_some_iff.mp h
      cases he
      rw [hpc]
      exact lookup_move hn
    · rename_i p hpc
      rw [hpc]
      have he := Option.some.inj h
      have hmove := send_move m i call.devid p env
      rwa [he] at hmove
    · rename_i p seq push_key hpc
      cases h
      rw [hpc]
      exact .refreshed p seq push_key
    · rename_i p seq push_key cur hpc
      obtain ⟨next, hn, he⟩ := Option.map_eq_some_iff.mp h
      cases he
      rw [hpc]
      exact poll_move hn
    · rename_i p push_key resp hpc
      obtain ⟨next, hn, he⟩ := Option.map_eq_some_iff.mp h
      cases he
      obtain ⟨pItem, hitem, rfl⟩ := Option.map_eq_some_iff.mp hn
      rw [hpc]
      exact .stored p push_key resp pItem hitem
    · cases h

-- A step that leaves the calls, the requests and the mailbox alone.
structure SameCalls (m after : PushClient) : Prop where
  calls : after.calls = m.calls
  requests : after.requests = m.requests
  msglist : after.msglist = m.msglist

-- The records are rewritten in place, with their ids and keys kept.
structure Rewritten (m after : PushClient) : Prop extends SameCalls m after where
  devlist : after.devlist = m.devlist
  length : after.nodes.length = m.nodes.length
  node : ∀ p, ∃ f : DeviceNode → DeviceNode, (∀ node, (f node).pid = node.pid) ∧
    (∀ node, (f node).key = node.key) ∧ after.node p = (m.node p).map f

-- The device gets a new record, or none.
def PushEvent.renews (d : String) : PushEvent → Bool
  | .addCamera pid _ _ _ _ _ _ => pid = d
  | .delCamera pid => pid = d
  | _ => false

-- What a step on the device table can do.
inductive TableMove (m : PushClient) : PushEvent → PushClient → Prop
  | rewritten {event : PushEvent} {after : PushClient} (h : Rewritten m after)
      (hevent : ∀ d, event.renews d = false) : TableMove m event after
  | absent (pid : String) (hp : m.devlist[pid]? = none) : TableMove m (.delCamera pid) m
  | added (pid name : String) (allday : Int) (s0 e0 s1 e1 : String) :
      TableMove m (.addCamera pid name allday s0 e0 s1 e1) (m.addCamera pid name allday s0 e0 s1 e1)
  | deleted (pid : String) (p : Nat) (hp : m.devlist[pid]? = some p) :
      TableMove m (.delCamera pid)
        { m with nodes := m.nodes.set p none, devlist := m.devlist.erase pid }

-- Everything one step on the client can do.
inductive PushStep (m : PushClient) : PushEvent → PushClient → List PushOutput → Prop
  | call (devid : String) :
      PushStep m (.call devid) { m with calls := m.calls ++ [⟨devid, .lookup⟩] } []
  | advance (i : Nat) (env : PushStepEnv) (call : PushCall) (after : PushClient)
      (out : List PushOutput) (hc : m.calls[i]? = some call)
      (move : PushMove m i call.devid env call.pc after out) :
      PushStep m (.advance i env) after out
  | answer (r : Nat) (body : Bytes) (tick : UInt64) (request : PushRequest)
      (hr : m.requests[r]? = some request) (hopen : request.answer = none) :
      PushStep m (.answer r body tick)
        (insertMsg { m with requests := m.requests.set r { request with answer := some body } }
          RESP_PUSH request.seq body tick) []
  | mail (cmd seq : Int) (body : Bytes) (tick : UInt64) :
      PushStep m (.receive cmd seq body tick) (m.insertMsg cmd seq body tick) []
  | table (event : PushEvent) (after : PushClient) (move : TableMove m event after) :
      PushStep m event after []

theorem Rewritten.refl (m : PushClient) : Rewritten m m :=
  ⟨⟨rfl, rfl, rfl⟩, rfl, rfl, fun _ => ⟨id, fun _ => rfl, fun _ => rfl, by simp⟩⟩

theorem Rewritten.trans {mid : PushClient} (h₁ : Rewritten m mid) (h₂ : Rewritten mid after) :
    Rewritten m after := by
  refine ⟨⟨h₂.calls.trans h₁.calls, h₂.requests.trans h₁.requests, h₂.msglist.trans h₁.msglist⟩,
    h₂.devlist.trans h₁.devlist, h₂.length.trans h₁.length, fun p => ?_⟩
  obtain ⟨f, hfp, hfk, hf⟩ := h₁.node p
  obtain ⟨g, hgp, hgk, hg⟩ := h₂.node p
  refine ⟨g ∘ f, fun node => ?_, fun node => ?_, ?_⟩
  · exact (hgp (f node)).trans (hfp node)
  · exact (hgk (f node)).trans (hfk node)
  · rw [hg, hf, Option.map_map]

theorem node_modifyNode (m : PushClient) (p q : Nat) (f : DeviceNode → DeviceNode) :
    (m.modifyNode p f).node q = if p = q then (m.node q).map f else m.node q := by
  unfold modifyNode PushClient.node
  rw [List.getElem?_modify]
  cases hq : m.nodes[q]? with
  | none => simp
  | some cell => split <;> simp

theorem modifyNode_rewritten (m : PushClient) (p : Nat) {f : DeviceNode → DeviceNode}
    (hpid : ∀ node, (f node).pid = node.pid) (hkey : ∀ node, (f node).key = node.key) :
    Rewritten m (m.modifyNode p f) := by
  refine ⟨⟨rfl, rfl, rfl⟩, rfl, by simp [modifyNode], fun q => ?_⟩
  rw [node_modifyNode]
  split
  · exact ⟨f, hpid, hkey, rfl⟩
  · exact ⟨id, fun _ => rfl, fun _ => rfl, by simp⟩

theorem setState_rewritten (m : PushClient) (item : StateItem) :
    Rewritten m (m.setState item) := by
  unfold PushClient.setState
  split
  · exact .refl m
  · exact modifyNode_rewritten m _ (fun _ => rfl) (fun _ => rfl)

theorem foldl_setState_rewritten (items : List StateItem) (m : PushClient) :
    Rewritten m (items.foldl PushClient.setState m) := by
  induction items generalizing m with
  | nil => exact .refl m
  | cons item rest ih => exact (setState_rewritten m item).trans (ih (m.setState item))

theorem stopDue_rewritten (m : PushClient) (outside : DeviceNode → Bool) :
    Rewritten m (m.stopDue outside) := by
  refine ⟨⟨rfl, rfl, rfl⟩, rfl, by simp [PushClient.stopDue], fun q => ?_⟩
  refine ⟨fun node =>
    if q ∈ m.devlist.values ∧ stopped outside node then { node with state := 1 } else node,
    fun node => ?_, fun node => ?_, ?_⟩
  · dsimp only
    split <;> rfl
  · dsimp only
    split <;> rfl
  · unfold PushClient.stopDue PushClient.node
    cases hq : m.nodes[q]? with
    | none => simp [hq]
    | some cell => simp [hq]

theorem delCamera_table (m : PushClient) (pid : String) :
    TableMove m (.delCamera pid) (m.delCamera pid) := by
  unfold PushClient.delCamera
  split
  · rename_i hp
    exact .absent pid hp
  · rename_i p hp
    exact .deleted pid p hp

-- What holds of an empty table and is kept by `AddCamera` holds after a login.
theorem loggedIn_induction (inv : PushClient → Prop) (hinit : inv {})
    (hadd : ∀ m pid name allday s0 e0 s1 e1, inv m →
      inv (m.addCamera pid name allday s0 e0 s1 e1))
    (rows : List TBDeviceEx) : inv (loggedIn rows) := by
  have hfold : ∀ (rows : List TBDeviceEx) (m : PushClient), inv m → inv (rows.foldl
      (fun m r => m.addCamera r.pid r.name r.allday r.s0 r.e0 r.s1 r.e1) m) := by
    intro rows
    induction rows with
    | nil => exact fun m hm => hm
    | cons r rest ih => exact fun m hm => ih _ (hadd m r.pid r.name r.allday r.s0 r.e0 r.s1 r.e1 hm)
  exact hfold rows {} hinit

theorem answer_eq_some {r : Nat} {body : Bytes} {tick : UInt64}
    (h : m.answer r body tick = some after) :
    ∃ request, m.requests[r]? = some request ∧ request.answer = none ∧
      after = insertMsg { m with requests := m.requests.set r { request with answer := some body } }
        RESP_PUSH request.seq body tick := by
  unfold PushClient.answer at h
  split at h
  · cases h
  · rename_i request hr
    split at h
    · cases h
    · rename_i hopen
      cases h
      exact ⟨request, hr, by simpa using hopen, rfl⟩

theorem receive_step {cmd seq : Int} {body : Bytes} {tick : UInt64}
    (h : m.receive cmd seq body tick = some after) :
    PushStep m (.receive cmd seq body tick) after [] := by
  unfold PushClient.receive at h
  split at h
  · cases h
    exact .table _ _ (.rewritten (.refl m) fun _ => rfl)
  · split at h
    · unfold PushClient.handleUpdateChange at h
      split at h
      · cases h
      · cases h
        exact .table _ _ (.rewritten (foldl_setState_rewritten _ m) fun _ => rfl)
    · cases h
      exact .mail cmd seq body tick

theorem pushStep_cases {event : PushEvent} (h : pushStep m event = some (after, out)) :
    PushStep m event after out := by
  cases event with
  | call devid =>
      cases h
      exact .call devid
  | advance i env =>
      obtain ⟨call, hc, move⟩ := advance_move h
      exact .advance i env call after out hc move
  | answer r body tick =>
      obtain ⟨next, hn, he⟩ := Option.map_eq_some_iff.mp h
      cases he
      obtain ⟨request, hr, hopen, rfl⟩ := answer_eq_some hn
      exact .answer r body tick request hr hopen
  | receive cmd seq body tick =>
      obtain ⟨next, hn, he⟩ := Option.map_eq_some_iff.mp h
      cases he
      exact receive_step hn
  | addCamera pid name allday s0 e0 s1 e1 =>
      cases h
      exact .table _ _ (.added pid name allday s0 e0 s1 e1)
  | delCamera pid =>
      cases h
      exact .table _ _ (delCamera_table m pid)
  | modifyCamera pid allday s0 e0 s1 e1 =>
      cases h
      refine .table _ _ (.rewritten ?_ fun _ => rfl)
      unfold PushClient.modifyCamera
      split
      · exact .refl m
      · exact modifyNode_rewritten m _ (fun _ => rfl) (fun _ => rfl)
  | stopAnswered p =>
      obtain ⟨next, hn, he⟩ := Option.map_eq_some_iff.mp h
      cases he
      obtain ⟨node, -, rfl⟩ := Option.map_eq_some_iff.mp hn
      exact .table _ _
        (.rewritten (modifyNode_rewritten m p (fun _ => rfl) (fun _ => rfl)) fun _ => rfl)
  | checkState outside =>
      cases h
      exact .table _ _ (.rewritten (stopDue_rewritten m outside) fun _ => rfl)

end VideoAdapter.Adapter

import VideoAdapter.Adapter.Push.Pointers

namespace VideoAdapter.Adapter

open Lib PushClient

-- The sequence number a call waits for.
def PushPc.waiting : PushPc → Option Int
  | .refresh _ seq _ => some seq
  | .poll _ seq _ _ => some seq
  | _ => none

def PushClient.waits (m : PushClient) (i : Nat) (seq : Int) : Prop :=
  ∃ call, m.calls[i]? = some call ∧ call.pc.waiting = some seq

-- The adapter sends `RESP_PUSH` frames only as answers to requests.
def PushEvent.echoing : PushEvent → Bool
  | .receive cmd _ _ _ => cmd ≠ RESP_PUSH
  | _ => true

def echoes (_ : PushHistory) (_ : PushClient) (event : PushEvent) : Prop := event.echoing = true

-- Nothing else goes by this sequence number: no call waits for it, no request with it is
-- still to be answered, and no answer with it lies in the mailbox.
structure SeqFree (m : PushClient) (seq : Int) : Prop where
  waits : ∀ i, ¬ m.waits i seq
  requests : ∀ request ∈ m.requests, request.seq = seq → request.answer.isSome
  msglist : ∀ pNode ∈ m.msglist, isAnswer seq pNode = false

-- Every request is sent with a sequence number that is free at that time.
def keepsSeqApart (history : PushHistory) (m : PushClient) (event : PushEvent) : Prop :=
  echoes history m event ∧
    ∀ i env devid p, event = .advance i env → m.calls[i]? = some ⟨devid, .send p⟩ →
      env.sent = true → SeqFree m (generalSeqnumber env.draws)

def PushClient.answeredTo (m : PushClient) (i : Nat) (devid : String) (resp : RespPush) : Prop :=
  ∃ request ∈ m.requests, request.call = i ∧ request.devid = devid ∧
    ∃ body, request.answer = some body ∧ RespPush.decode body = resp

-- Of all requests with the sequence number of a waiting call, only its own is open, and
-- the answers in the mailbox that it could take are answers to its own request.
structure Apart (m : PushClient) : Prop where
  devid : ∀ request ∈ m.requests, ∃ call, m.calls[request.call]? = some call ∧
    call.devid = request.devid
  others : ∀ i seq, m.waits i seq → ∀ request ∈ m.requests, request.seq = seq →
    request.call ≠ i → request.answer.isSome
  mail : ∀ pNode ∈ m.msglist, pNode.iType = RESP_PUSH → ∃ request ∈ m.requests,
    request.answer = some pNode.buf ∧ ∀ i, m.waits i pNode.seqnum → i = request.call
  done : ∀ i call resp, m.calls[i]? = some call → call.pc.response = some resp →
    m.answeredTo i call.devid resp

variable {m after : PushClient} {i : Nat} {call : PushCall} {pc : PushPc} {env : PushStepEnv}
  {out : List PushOutput}

-- Only the calls, the requests and the mailbox matter.
theorem Apart.congr (hv : Apart m) (hcalls : after.calls = m.calls)
    (hrequests : after.requests = m.requests)
    (hmail : ∀ pNode ∈ after.msglist, pNode.iType = RESP_PUSH → pNode ∈ m.msglist) :
    Apart after := by
  refine ⟨?_, ?_, ?_, ?_⟩
  · rw [hcalls, hrequests]
    exact hv.devid
  · simpa only [waits, hcalls, hrequests] using hv.others
  · intro pNode hm htype
    simpa only [waits, hcalls, hrequests] using hv.mail pNode (hmail pNode hm htype) htype
  · simpa only [answeredTo, hcalls, hrequests] using hv.done

theorem waits_goto (hc : m.calls[i]? = some call)
    (hwait : ∀ seq, pc.waiting = some seq → call.pc.waiting = some seq) {j : Nat} {seq : Int}
    (h : (m.goto i pc).waits j seq) : m.waits j seq := by
  obtain ⟨callj, hj, hw⟩ := h
  rw [calls_goto m i j pc hc] at hj
  split at hj
  · rename_i hji
    cases hj
    exact ⟨call, hji ▸ hc, hwait seq hw⟩
  · exact ⟨callj, hj, hw⟩

-- A call that goes on without beginning to wait for anything new.
theorem Apart.goto (hv : Apart m) {mid : PushClient} (hcalls : mid.calls = m.calls)
    (hrequests : mid.requests = m.requests)
    (hmail : ∀ pNode ∈ mid.msglist, pNode.iType = RESP_PUSH → pNode ∈ m.msglist)
    (hc : m.calls[i]? = some call)
    (hwait : ∀ seq, pc.waiting = some seq → call.pc.waiting = some seq)
    (hresp : ∀ resp, pc.response = some resp → m.answeredTo i call.devid resp) :
    Apart (mid.goto i pc) := by
  replace hv := hv.congr hcalls hrequests hmail
  replace hc : mid.calls[i]? = some call := hcalls ▸ hc
  refine ⟨?_, ?_, ?_, ?_⟩
  · intro request hr
    obtain ⟨callr, hcr, hd⟩ := hv.devid request hr
    rw [calls_goto mid i request.call pc hc]
    split
    · rename_i hi
      rw [hi, hc] at hcr
      cases hcr
      exact ⟨_, rfl, hd⟩
    · exact ⟨callr, hcr, hd⟩
  · exact fun j seq hw => hv.others j seq (waits_goto hc hwait hw)
  · intro pNode hm htype
    obtain ⟨request, hr, ha, hsole⟩ := hv.mail pNode hm htype
    exact ⟨request, hr, ha, fun j hw => hsole j (waits_goto hc hwait hw)⟩
  · intro j callj resp hj hr
    rw [calls_goto mid i j pc hc] at hj
    split at hj
    · rename_i hji
      cases hj
      rw [hji]
      simpa only [answeredTo, requests_goto, hrequests] using hresp resp hr
    · exact hv.done j callj resp hj hr

-- A request goes out with a number that is free: whoever waits afterwards is the sender,
-- or has waited before, for another number.
theorem Apart.send (hv : Apart m) {sent : PushClient} {p : Nat} {seq : Int} {key : String}
    (hcalls : sent.calls = m.calls) (hmail : sent.msglist = m.msglist)
    (hreq : sent.requests = m.requests ++ [⟨i, call.devid, seq, key, none⟩])
    (hc : m.calls[i]? = some call) (hfree : SeqFree m seq) :
    Apart (sent.goto i (.refresh p seq key)) := by
  have hcs : sent.calls[i]? = some call := by rw [hcalls, hc]
  have hwaits : ∀ j seq', (sent.goto i (.refresh p seq key)).waits j seq' →
      j = i ∧ seq' = seq ∨ m.waits j seq' ∧ seq' ≠ seq := by
    rintro j seq' ⟨callj, hj, hw⟩
    rw [calls_goto sent i j _ hcs] at hj
    split at hj
    · rename_i hji
      cases hj
      exact .inl ⟨hji, (Option.some.inj hw).symm⟩
    · have hold : m.waits j seq' := ⟨callj, hcalls ▸ hj, hw⟩
      refine .inr ⟨hold, ?_⟩
      rintro rfl
      exact hfree.waits j hold
  have hmem : ∀ request ∈ (sent.goto i (.refresh p seq key)).requests,
      request ∈ m.requests ∨ request = ⟨i, call.devid, seq, key, none⟩ := by
    intro request hr
    rw [requests_goto, hreq] at hr
    simpa using hr
  have hkeep : ∀ request ∈ m.requests, request ∈ (sent.goto i (.refresh p seq key)).requests := by
    intro request hr
    rw [requests_goto, hreq]
    exact List.mem_append_left _ hr
  refine ⟨?_, ?_, ?_, ?_⟩
  · intro request hr
    rw [calls_goto sent i request.call _ hcs]
    rcases hmem request hr with hr | rfl
    · obtain ⟨callr, hcr, hd⟩ := hv.devid request hr
      split
      · rename_i hi
        rw [hi, hc] at hcr
        cases hcr
        exact ⟨_, rfl, hd⟩
      · exact ⟨callr, hcalls ▸ hcr, hd⟩
    · exact ⟨_, if_pos rfl, rfl⟩
  · intro j seq' hw request hr hseq hne
    rcases hmem request hr with hold | rfl
    · rcases hwaits j seq' hw with ⟨-, rfl⟩ | ⟨hwold, -⟩
      · exact hfree.requests request hold hseq
      · exact hv.others j seq' hwold request hold hseq hne
    · rcases hwaits j seq' hw with ⟨rfl, -⟩ | ⟨-, hother⟩
      · exact absurd rfl hne
      · exact absurd hseq.symm hother
  · intro pNode hm htype
    rw [msglist_goto, hmail] at hm
    obtain ⟨request, hr, ha, hsole⟩ := hv.mail pNode hm htype
    refine ⟨request, hkeep request hr, ha, fun j hw => ?_⟩
    rcases hwaits j _ hw with ⟨-, hseq⟩ | ⟨hold, -⟩
    · have hnot := hfree.msglist pNode hm
      simp [isAnswer, htype, hseq] at hnot
    · exact hsole j hold
  · intro j callj resp hj hr
    rw [calls_goto sent i j _ hcs] at hj
    split at hj
    · cases hj
      cases hr
    · obtain ⟨request, hm, hans⟩ := hv.done j callj resp (hcalls ▸ hj) hr
      exact ⟨request, hkeep request hm, hans⟩

-- An answered request is not touched when another one is answered.
theorem mem_set_answer {r : Nat} {request other : PushRequest} {body : Bytes}
    (hr : m.requests[r]? = some request) (hopen : request.answer = none) (hm : other ∈ m.requests)
    (ha : other.answer.isSome) :
    other ∈ m.requests.set r { request with answer := some body } := by
  obtain ⟨k, hk⟩ := List.mem_iff_getElem?.mp hm
  have hne : r ≠ k := by
    rintro rfl
    rw [hr] at hk
    cases hk
    simp [hopen] at ha
  exact List.mem_iff_getElem?.mpr ⟨k, by rw [List.getElem?_set_ne hne, hk]⟩

theorem Apart.answer (hv : Apart m) {r : Nat} {request : PushRequest} {body : Bytes}
    {tick : UInt64} (hr : m.requests[r]? = some request) (hopen : request.answer = none) :
    Apart (PushClient.insertMsg
      { m with requests := m.requests.set r { request with answer := some body } }
      RESP_PUSH request.seq body tick) := by
  have hmem := List.mem_of_getElem? hr
  have hlt : r < m.requests.length := (List.getElem?_eq_some_iff.mp hr).1
  refine ⟨?_, ?_, ?_, ?_⟩
  · intro other ho
    rw [requests_insertMsg] at ho
    rw [calls_insertMsg]
    rcases List.mem_or_eq_of_mem_set ho with ho | rfl
    · exact hv.devid other ho
    · exact hv.devid request hmem
  · intro j seq hw other ho hseq hne
    rw [requests_insertMsg] at ho
    have hw : m.waits j seq := by simpa only [waits, calls_insertMsg] using hw
    rcases List.mem_or_eq_of_mem_set ho with ho | rfl
    · exact hv.others j seq hw other ho hseq hne
    · rfl
  · intro pNode hm htype
    simp only [requests_insertMsg, waits, calls_insertMsg]
    rcases mem_insertMsg _ hm with hm | rfl
    · obtain ⟨other, ho, ha, hsole⟩ := hv.mail pNode hm htype
      exact ⟨other, mem_set_answer hr hopen ho (by simp [ha]), ha, hsole⟩
    · refine ⟨_, List.mem_set hlt _, rfl, fun j hw => ?_⟩
      -- anyone else who waits for this number would see the request open
      by_contra hne
      have hans := hv.others j request.seq hw request hmem rfl (Ne.symm hne)
      simp [hopen] at hans
  · intro j callj resp hj hresp
    rw [calls_insertMsg] at hj
    obtain ⟨other, ho, hcall, hdevid, buf, ha, hdec⟩ := hv.done j callj resp hj hresp
    refine ⟨other, ?_, hcall, hdevid, buf, ha, hdec⟩
    rw [requests_insertMsg]
    exact mem_set_answer hr hopen ho (by simp [ha])

theorem Apart.start (hv : Apart m) (devid : String) :
    Apart { m with calls := m.calls ++ [⟨devid, .lookup⟩] } := by
  have hwaits : ∀ j seq, PushClient.waits
      { m with calls := m.calls ++ [⟨devid, .lookup⟩] } j seq → m.waits j seq := by
    rintro j seq ⟨callj, hj, hw⟩
    rcases calls_call m j hj with hj | hpc
    · exact ⟨callj, hj, hw⟩
    · simp [hpc, PushPc.waiting] at hw
  refine ⟨?_, ?_, ?_, ?_⟩
  · intro request hr
    obtain ⟨callr, hc, hd⟩ := hv.devid request hr
    exact ⟨callr, List.getElem?_append_left (List.getElem?_eq_some_iff.mp hc).1 ▸ hc, hd⟩
  · exact fun j seq hw => hv.others j seq (hwaits j seq hw)
  · intro pNode hm htype
    obtain ⟨request, hr, ha, hsole⟩ := hv.mail pNode hm htype
    exact ⟨request, hr, ha, fun j hw => hsole j (hwaits j _ hw)⟩
  · intro j callj resp hj hresp
    rcases calls_call m j hj with hj | hpc
    · exact hv.done j callj resp hj hresp
    · simp [hpc, PushPc.response] at hresp

theorem Apart.move (hv : Apart m) (hc : m.calls[i]? = some call)
    (hfree : ∀ p, call.pc = .send p → env.sent = true → SeqFree m (generalSeqnumber env.draws))
    (move : PushMove m i call.devid env call.pc after out) : Apart after := by
  have hmail : ∀ pNode ∈ m.msglist, pNode.iType = RESP_PUSH → pNode ∈ m.msglist :=
    fun _ h _ => h
  obtain ⟨devid, pc⟩ := call
  cases move with
  | unknown | pushing | lost | timeout | found =>
      exact hv.goto rfl rfl hmail hc (fun _ h => by cases h) (fun _ h => by cases h)
  | sent p hs => exact hv.send rfl rfl rfl hc (hfree p rfl hs)
  | refreshed p seq push_key =>
      exact hv.goto rfl rfl (fun _ h _ => List.mem_of_mem_filter h) hc (fun _ h => h)
        (fun _ h => by cases h)
  | waiting => exact hv
  | taken p seq push_key cur pNode hf h100 =>
      refine hv.goto rfl rfl (fun _ h _ => List.mem_of_mem_eraseP h) hc (fun _ h => by cases h)
        (fun resp h => ?_)
      cases h
      have hm := List.mem_of_find?_eq_some hf
      have ha : pNode.iType = RESP_PUSH ∧ pNode.seqnum = seq := by
        simpa [isAnswer] using List.find?_some hf
      -- the call itself waits for this number, so the answer is to its own request
      obtain ⟨request, hr, hans, hsole⟩ := hv.mail pNode hm ha.1
      have hi : i = request.call := hsole i ⟨_, hc, congrArg some ha.2.symm⟩
      obtain ⟨callr, hcr, hd⟩ := hv.devid request hr
      rw [← hi, hc] at hcr
      cases hcr
      exact ⟨request, hr, hi.symm, hd.symm, pNode.buf, hans, rfl⟩
  | refused =>
      exact hv.goto rfl rfl (fun _ h _ => List.mem_of_mem_eraseP h) hc (fun _ h => by cases h)
        (fun _ h => by cases h)
  | stored p push_key resp pItem hn =>
      exact hv.goto rfl rfl hmail hc (fun _ h => by cases h) (fun _ h => hv.done i _ _ hc h)

theorem Apart.step {history : PushHistory} {event : PushEvent} (hv : Apart m)
    (hguard : keepsSeqApart history m event) (hs : pushStep m event = some (after, out)) :
    Apart after := by
  obtain ⟨hecho, hfree⟩ := hguard
  cases pushStep_cases hs with
  | call devid => exact hv.start devid
  | advance i env call after out hc move =>
      exact hv.move hc (fun p hpc hsent => hfree i env call.devid p rfl (hpc ▸ hc) hsent) move
  | answer r body tick request hr hopen => exact hv.answer hr hopen
  | mail cmd seq body tick =>
      refine hv.congr (by simp) (by simp) fun pNode hm htype => ?_
      rcases mem_insertMsg m hm with hm | rfl
      · exact hm
      · simp only [echoes, PushEvent.echoing, decide_eq_true_eq] at hecho
        exact absurd htype hecho
  | table event after move =>
      cases move with
      | rewritten h => exact hv.congr h.calls h.requests (fun _ hm _ => h.msglist ▸ hm)
      | absent => exact hv
      | added => exact hv.congr rfl rfl (fun _ hm _ => hm)
      | deleted => exact hv.congr rfl rfl (fun _ hm _ => hm)

theorem apart_loggedIn (rows : List TBDeviceEx) : Apart (loggedIn rows) :=
  loggedIn_induction _ ⟨by simp, by simp, by simp, by simp⟩
    (fun _ _ _ _ _ _ _ _ hm => hm.congr rfl rfl (fun _ h _ => h)) rows

theorem apart_run {rows : List TBDeviceEx} {history : PushHistory}
    (hrun : Run pushStep keepsSeqApart (loggedIn rows) history m) : Apart m := by
  refine hrun.invariant (fun _ m => Apart m) (apart_loggedIn rows) ?_
  intro history before event after out hv hguard hs
  exact hv.step hguard hs

-- The token that a call stored in a record of its device and returns is the token of the
-- adapter's answer to the request of this call.
def PushClient.storedOwn (m : PushClient) (i : Nat) (devid push_key : String) : Prop :=
  ∃ p node res resp, m.node p = some node ∧ node.pid = devid ∧ node.key = push_key ∧
    node.token = resp.token ∧ m.calls[i]? = some ⟨devid, .done res (some resp)⟩ ∧
    res.token = resp.token ∧ m.answeredTo i devid resp

theorem responses_not_crossed {rows : List TBDeviceEx} {history : PushHistory}
    (hrun : Run pushStep keepsSeqApart (loggedIn rows) ((.advance i env, out) :: history) m)
    {devid push_key : String} (hstored : .stored devid push_key ∈ out) :
    m.storedOwn i devid push_key := by
  have hapart := apart_run hrun
  cases hrun with
  | @next _ before _ _ _ hbefore hguard hs =>
  have hlinked := linked_run hbefore
  obtain ⟨⟨devid', pc⟩, hc, move⟩ := advance_move hs
  cases move with
  | stored p key resp pItem hn =>
      cases List.mem_singleton.mp hstored
      have hcall := (calls_goto _ i i (.done ⟨0, "success!", resp.token, false⟩ (some resp))
        (show (PushClient.mk (before.nodes.set p (some (pItem.pushing resp.token push_key)))
          before.devlist before.msglist before.calls before.requests).calls[i]? = _ from hc)).trans
        (if_pos rfl)
      have hanswered := hapart.done i _ resp hcall rfl
      refine ⟨p, pItem.pushing resp.token push_key, _, resp, ?_, ?_, rfl, rfl, hcall, rfl, hanswered⟩
      · exact (node_set (lt_length_of_node hn) _ rfl).trans (if_pos rfl)
      · exact hlinked.calls i _ p pItem hc rfl hn
  | sent => simp at hstored
  | lost => simp at hstored
  | _ => cases hstored

-- The guard as a computation.
def seqFree (m : PushClient) (seq : Int) : Bool :=
  (m.calls.all fun call => call.pc.waiting ≠ some seq) &&
    (m.requests.all fun request => request.seq ≠ seq ∨ request.answer.isSome) &&
    m.msglist.all fun pNode => !isAnswer seq pNode

theorem seqFree_iff (m : PushClient) (seq : Int) : seqFree m seq = true ↔ SeqFree m seq := by
  have hcalls : (∀ i, ¬ m.waits i seq) ↔ ∀ call ∈ m.calls, call.pc.waiting ≠ some seq := by
    constructor
    · intro h call hm hw
      obtain ⟨i, hi⟩ := List.mem_iff_getElem?.mp hm
      exact h i ⟨call, hi, hw⟩
    · rintro h i ⟨call, hi, hw⟩
      exact h call (List.mem_of_getElem? hi) hw
  have hrequests : (∀ request ∈ m.requests, request.seq = seq → request.answer.isSome) ↔
      ∀ request ∈ m.requests, request.seq ≠ seq ∨ request.answer.isSome := by
    simp only [imp_iff_not_or, ne_eq]
  simp only [seqFree, Bool.and_eq_true, List.all_eq_true, decide_eq_true_eq, Bool.not_eq_true']
  rw [← hcalls, ← hrequests]
  exact ⟨fun h => ⟨h.1.1, h.1.2, h.2⟩, fun h => ⟨⟨h.waits, h.requests⟩, h.msglist⟩⟩

def sendsApart (_ : PushHistory) (m : PushClient) (event : PushEvent) : Bool :=
  event.echoing &&
    match event with
    | .advance _ env => seqFree m (generalSeqnumber env.draws) || !env.sent
    | _ => true

theorem keepsSeqApart_of_sendsApart (history : PushHistory) (m : PushClient) (event : PushEvent)
    (h : sendsApart history m event = true) : keepsSeqApart history m event := by
  obtain ⟨hecho, hfree⟩ := Bool.and_eq_true_iff.mp h
  refine ⟨hecho, ?_⟩
  rintro i env devid p rfl - hsent
  simp only [hsent, Bool.not_true, Bool.or_false] at hfree
  exact (seqFree_iff m _).mp hfree

def camera (pid : String) : TBDeviceEx := { pid, name := "", allday := 1 }

-- The last step is one of this call, and stores a key for this device.
def storesKey (i : Nat) (devid push_key : String) (_ : PushHistory) (event : PushEvent)
    (out : List PushOutput) (_ : PushClient) : Bool :=
  match event with
  | .advance j _ => j = i ∧ .stored devid push_key ∈ out
  | _ => false

-- Two calls with different numbers, answered in the other order.
theorem responses_not_crossed_two_seconds :
    ∃ history env out m, Run pushStep keepsSeqApart (loggedIn [camera "d1", camera "d2"])
      ((.advance 0 env, out) :: history) m ∧ m.storedOwn 0 "d1" "3333333333" := by
  obtain ⟨history, event, out, m, run, ht⟩ :=
    exists_last_of_ends pushStep keepsSeqApart (loggedIn [camera "d1", camera "d2"])
      [.call "d1", .call "d2", go 0 3 false, go 1 4 false, go 0 3 true, go 1 4 true,
        reply 1 "T2", reply 0 "T1", go 0 3 false, go 0 3 false, go 0 3 false]
      (storesKey 0 "d1" "3333333333")
      (guarded_of_passes _ keepsSeqApart_of_sendsApart (by decide +kernel)) (by decide +kernel)
  cases event with
  | advance j env =>
      obtain ⟨rfl, hstored⟩ := of_decide_eq_true ht
      exact ⟨history, env, out, m, run, responses_not_crossed run hstored⟩
  | _ => cases ht

-- Both calls draw the same number in one second, so the call for `d2` takes the answer
-- to the request for `d1`.
theorem responses_crossed :
    ¬ ∀ rows history i env out m, Run pushStep echoes (loggedIn rows)
      ((.advance i env, out) :: history) m → ∀ devid push_key, .stored devid push_key ∈ out →
        m.storedOwn i devid push_key := by
  intro hall
  obtain ⟨history, event, out, m, run, ht⟩ :=
    exists_last_of_ends pushStep echoes
      (loggedIn [camera "d1", camera "d2"])
      [.call "d1", .call "d2", go 0 3 false, go 1 3 false, go 0 3 true, go 1 3 true,
        reply 0 "T1", reply 1 "T2", go 1 3 false, go 1 3 false, go 1 3 false]
      (fun history event out m => storesKey 1 "d2" "3333333333" history event out m &&
        (m.calls[1]? = some ⟨"d2", .done ⟨0, "success!", "T1", false⟩ (some ⟨100, "T1"⟩)⟩ ∧
        ∀ request ∈ m.requests, request.call = 1 →
          request.answer.all fun body => RespPush.decode body ≠ ⟨100, "T1"⟩))
      (guarded_of_passes (fun _ _ => PushEvent.echoing) (fun _ _ _ h => h)
        (by decide +kernel)) (by decide +kernel)
  obtain ⟨hkey, ht⟩ := Bool.and_eq_true_iff.mp ht
  obtain ⟨hcall, hother⟩ := of_decide_eq_true ht
  cases event with
  | advance j env =>
      obtain ⟨rfl, hstored⟩ := of_decide_eq_true hkey
      obtain ⟨p, node, res, resp, -, -, -, -, hown, -, request, hm, hr, -, body, ha, hdec⟩ :=
        hall _ history 1 env out m run "d2" "3333333333" hstored
      rw [hcall] at hown
      cases hown
      simpa [ha, hdec] using hother request hm hr
  | _ => cases hkey

end VideoAdapter.Adapter

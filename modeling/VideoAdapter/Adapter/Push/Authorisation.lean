import VideoAdapter.Adapter.Push.Pointers

namespace VideoAdapter.Adapter

open Lib PushClient

-- The key a call has sent and not yet stored.
def PushPc.pushKey : PushPc → Option String
  | .refresh _ _ push_key => some push_key
  | .poll _ _ push_key _ => some push_key
  | .store _ push_key _ => some push_key
  | _ => none

-- Some call for this device sent the key in its request and was answered with result 100.
def PushClient.issued (m : PushClient) (pid key : String) : Prop :=
  ∃ request ∈ m.requests, request.devid = pid ∧ request.key = key ∧
    ∃ (call : PushCall) (resp : RespPush), m.calls[request.call]? = some call ∧
      call.pc.response = some resp ∧ resp.result = 100

-- Keys are never empty on the way out, and a record without an empty key has one that was
-- issued for its device.
structure Keyed (m : PushClient) : Prop where
  requests : ∀ request ∈ m.requests, request.key ≠ ""
  sent : ∀ (i : Nat) (call : PushCall) (key : String), m.calls[i]? = some call →
    call.pc.pushKey = some key →
    ∃ request ∈ m.requests, request.call = i ∧ request.devid = call.devid ∧ request.key = key
  accepted : ∀ (i : Nat) (call : PushCall) (resp : RespPush), m.calls[i]? = some call →
    call.pc.response = some resp → resp.result = 100
  nodes : ∀ (p : Nat) (node : DeviceNode), m.node p = some node →
    node.key = "" ∨ m.issued node.pid node.key

variable {m after : PushClient} {i : Nat} {call : PushCall} {pc : PushPc} {p : Nat}
  {node : DeviceNode} {event : PushEvent} {out : List PushOutput} {env : PushStepEnv}

-- Requests keep what they carry, and calls keep the answers they took.
structure Grows (m after : PushClient) : Prop where
  requests : ∀ request ∈ m.requests, ∃ later ∈ after.requests, later.call = request.call ∧
    later.devid = request.devid ∧ later.key = request.key
  calls : ∀ (i : Nat) (call : PushCall) (resp : RespPush), m.calls[i]? = some call →
    call.pc.response = some resp →
    ∃ later, after.calls[i]? = some later ∧ later.pc.response = some resp

theorem issued_of_grows (hg : Grows m after) {pid key : String} (h : m.issued pid key) :
    after.issued pid key := by
  obtain ⟨request, hm, hdevid, hkey, call, resp, hc, hresp, h100⟩ := h
  obtain ⟨later, hl, hcall, hd, hk⟩ := hg.requests request hm
  obtain ⟨callLater, hcl, hrl⟩ := hg.calls request.call call resp hc hresp
  exact ⟨later, hl, hd.trans hdevid, hk.trans hkey, callLater, resp, hcall ▸ hcl, hrl, h100⟩

-- The calls are as before, and the requests are the same up to their answers.
theorem Keyed.congr (hv : Keyed m) (hcalls : after.calls = m.calls)
    (hback : ∀ later ∈ after.requests, ∃ request ∈ m.requests, later.key = request.key)
    (hreq : ∀ request ∈ m.requests, ∃ later ∈ after.requests, later.call = request.call ∧
      later.devid = request.devid ∧ later.key = request.key)
    (hnodes : ∀ p node, after.node p = some node → node.key = "" ∨
      ∃ q old, m.node q = some old ∧ node.pid = old.pid ∧ node.key = old.key) : Keyed after := by
  have hgrows : Grows m after :=
    ⟨hreq, fun i call resp hc hresp => ⟨call, hcalls ▸ hc, hresp⟩⟩
  refine ⟨?_, ?_, ?_, ?_⟩
  · intro later hl
    obtain ⟨request, hm, hkey⟩ := hback later hl
    exact hkey ▸ hv.requests request hm
  · intro i call key hc hkey
    obtain ⟨request, hm, hcall, hdevid, hk⟩ := hv.sent i call key (hcalls ▸ hc) hkey
    obtain ⟨later, hl, hcl, hdl, hkl⟩ := hreq request hm
    exact ⟨later, hl, hcl.trans hcall, hdl.trans hdevid, hkl.trans hk⟩
  · exact fun i call resp hc => hv.accepted i call resp (hcalls ▸ hc)
  · intro p node hn
    rcases hnodes p node hn with hempty | ⟨q, old, hold, hpid, hkey⟩
    · exact .inl hempty
    · rw [hpid, hkey]
      exact (hv.nodes q old hold).imp_right (issued_of_grows hgrows)

-- A call goes on; the answer it has taken is kept, and a new one has result 100.
theorem Keyed.goto (hv : Keyed m) {mid : PushClient} (hcalls : mid.calls = m.calls)
    (hc : m.calls[i]? = some call)
    (hrequests : ∀ request ∈ mid.requests, request ∈ m.requests ∨ request.key ≠ "")
    (hkept : ∀ request ∈ m.requests, request ∈ mid.requests)
    (hkey : ∀ key, pc.pushKey = some key → call.pc.pushKey = some key ∨
      ∃ request ∈ mid.requests, request.call = i ∧ request.devid = call.devid ∧ request.key = key)
    (hresp : ∀ resp, call.pc.response = some resp → pc.response = some resp)
    (h100 : ∀ resp, pc.response = some resp → resp.result = 100)
    (hnodes : ∀ p node, mid.node p = some node → m.node p = some node ∨
      ∃ resp key, call.pc.response = some resp ∧ call.pc.pushKey = some key ∧
        node.pid = call.devid ∧ node.key = key) : Keyed (mid.goto i pc) := by
  have hgoto : ∀ j, (mid.goto i pc).calls[j]? =
      if j = i then some { call with pc } else m.calls[j]? := by
    intro j
    rw [calls_goto mid i j pc (hcalls ▸ hc), hcalls]
  have hgrows : Grows m (mid.goto i pc) := by
    refine ⟨fun request hm => ⟨request, hkept request hm, rfl, rfl, rfl⟩, ?_⟩
    intro j callj resp hj hr
    rw [hgoto]
    split
    · rename_i hji
      rw [hji, hc] at hj
      cases hj
      exact ⟨_, rfl, hresp resp hr⟩
    · exact ⟨callj, hj, hr⟩
  have hsent : ∀ key, call.pc.pushKey = some key → ∃ request ∈ mid.requests,
      request.call = i ∧ request.devid = call.devid ∧ request.key = key := by
    intro key hk
    obtain ⟨request, hm, h⟩ := hv.sent i call key hc hk
    exact ⟨request, hkept request hm, h⟩
  refine ⟨?_, ?_, ?_, ?_⟩
  · intro request hm
    rcases hrequests request hm with hold | hnew
    · exact hv.requests request hold
    · exact hnew
  · intro j callj key hj hk
    rw [hgoto] at hj
    split at hj
    · rename_i hji
      cases hj
      rw [hji]
      exact (hkey key hk).elim (hsent key) id
    · obtain ⟨request, hm, h⟩ := hv.sent j callj key hj hk
      exact ⟨request, hkept request hm, h⟩
  · intro j callj resp hj hr
    rw [hgoto] at hj
    split at hj
    · cases hj
      exact h100 resp hr
    · exact hv.accepted j callj resp hj hr
  · intro p node hn
    rcases hnodes p node hn with hold | ⟨resp, key, hr, hk, hpid, hkey⟩
    · exact (hv.nodes p node hold).imp_right (issued_of_grows hgrows)
    · obtain ⟨request, hm, hcall, hdevid, hreq⟩ := hsent key hk
      refine .inr ⟨request, hm, by rw [hdevid, hpid], by rw [hreq, hkey], { call with pc }, resp,
        ?_, hresp resp hr, h100 resp (hresp resp hr)⟩
      rw [hcall, hgoto, if_pos rfl]

theorem Keyed.move (hv : Keyed m) (hlinked : Linked m) (hc : m.calls[i]? = some call)
    (move : PushMove m i call.devid env call.pc after out) : Keyed after := by
  have hrequests : ∀ request ∈ m.requests, request ∈ m.requests ∨ request.key ≠ "" :=
    fun _ h => .inl h
  have hkept : ∀ request ∈ m.requests, request ∈ m.requests := fun _ h => h
  obtain ⟨devid, pc⟩ := call
  cases move with
  | unknown | pushing | lost | timeout | found | refused =>
      exact hv.goto rfl hc hrequests hkept (fun _ h => by cases h) (fun _ h => by cases h)
        (fun _ h => by cases h) (fun _ _ h => .inl h)
  | sent p hs =>
      refine hv.goto rfl hc (fun request h => ?_) (fun _ h => List.mem_append_left _ h)
        (fun key h => .inr ?_) (fun _ h => by cases h) (fun _ h => by cases h) (fun _ _ h => .inl h)
      · rcases List.mem_append.mp h with h | h
        · exact .inl h
        · cases List.mem_singleton.mp h
          exact .inr (generalToken_ne_empty env.draws 10 (by decide))
      · cases h
        exact ⟨_, List.mem_append_right _ List.mem_cons_self, rfl, rfl, rfl⟩
  | refreshed p seq push_key =>
      exact hv.goto rfl hc hrequests hkept (fun _ h => .inl h) (fun _ h => by cases h)
        (fun _ h => by cases h) (fun _ _ h => .inl h)
  | waiting => exact hv
  | taken p seq push_key cur pNode hf h100 =>
      refine hv.goto rfl hc hrequests hkept (fun _ h => .inl h) (fun _ h => by cases h)
        (fun _ h => ?_) (fun _ _ h => .inl h)
      cases h
      exact h100
  | stored p push_key resp pItem hn =>
      refine hv.goto rfl hc hrequests hkept (fun _ h => by cases h) (fun _ h => h)
        (fun _ h => hv.accepted i _ _ hc h) (fun q node h => ?_)
      rw [node_set (lt_length_of_node hn) _ rfl] at h
      split at h
      · cases h
        exact .inr ⟨resp, push_key, rfl, rfl, hlinked.calls i _ p pItem hc rfl hn, rfl⟩
      · exact .inl h

theorem Keyed.start (hv : Keyed m) (devid : String) :
    Keyed { m with calls := m.calls ++ [⟨devid, .lookup⟩] } := by
  have hgrows : Grows m { m with calls := m.calls ++ [⟨devid, .lookup⟩] } := by
    refine ⟨fun request hm => ⟨request, hm, rfl, rfl, rfl⟩, fun j callj resp hj hr => ?_⟩
    exact ⟨callj, (List.getElem?_append_left (List.getElem?_eq_some_iff.mp hj).1).trans hj, hr⟩
  refine ⟨hv.requests, ?_, ?_, ?_⟩
  · intro j callj key hj hk
    rcases calls_call m j hj with hj | hpc
    · exact hv.sent j callj key hj hk
    · simp [hpc, PushPc.pushKey] at hk
  · intro j callj resp hj hr
    rcases calls_call m j hj with hj | hpc
    · exact hv.accepted j callj resp hj hr
    · simp [hpc, PushPc.response] at hr
  · exact fun p node hn => (hv.nodes p node hn).imp_right (issued_of_grows hgrows)

theorem Keyed.answer (hv : Keyed m) {r : Nat} {request : PushRequest} {body : Bytes}
    {tick : UInt64} (hr : m.requests[r]? = some request) :
    Keyed (PushClient.insertMsg
      { m with requests := m.requests.set r { request with answer := some body } }
      RESP_PUSH request.seq body tick) := by
  have hlt : r < m.requests.length := (List.getElem?_eq_some_iff.mp hr).1
  refine hv.congr (by simp) (fun later hl => ?_) (fun other ho => ?_) (fun p node hn => ?_)
  · rw [requests_insertMsg] at hl
    rcases List.mem_or_eq_of_mem_set hl with hl | rfl
    · exact ⟨later, hl, rfl⟩
    · exact ⟨request, List.mem_of_getElem? hr, rfl⟩
  · rw [requests_insertMsg]
    obtain ⟨k, hk⟩ := List.mem_iff_getElem?.mp ho
    by_cases hrk : r = k
    · subst hrk
      rw [hr] at hk
      cases hk
      exact ⟨_, List.mem_set hlt _, rfl, rfl, rfl⟩
    · exact ⟨other, List.mem_iff_getElem?.mpr ⟨k, by rw [List.getElem?_set_ne hrk, hk]⟩, rfl, rfl, rfl⟩
  · refine .inr ⟨p, node, ?_, rfl, rfl⟩
    simpa [PushClient.node] using hn

theorem Keyed.addCamera (hv : Keyed m) (pid name : String) (allday : Int)
    (s0 e0 s1 e1 : String) : Keyed (m.addCamera pid name allday s0 e0 s1 e1) := by
  refine hv.congr rfl (fun later hl => ⟨later, hl, rfl⟩)
    (fun request hm => ⟨request, hm, rfl, rfl, rfl⟩) (fun p node hn => ?_)
  rw [node_addCamera] at hn
  split at hn
  · cases hn
    exact .inl (newCamera_key ..)
  · exact .inr ⟨p, node, hn, rfl, rfl⟩

theorem Keyed.table (hv : Keyed m) (hlinked : Linked m) (move : TableMove m event after) :
    Keyed after := by
  cases move with
  | rewritten h =>
      refine hv.congr h.calls (fun later hl => ⟨later, h.requests ▸ hl, rfl⟩)
        (fun request hm => ⟨request, h.requests ▸ hm, rfl, rfl, rfl⟩) (fun p node hn => ?_)
      obtain ⟨f, hpid, hkey, hf⟩ := h.node p
      rw [hf] at hn
      obtain ⟨old, hold, rfl⟩ := Option.map_eq_some_iff.mp hn
      exact .inr ⟨p, old, hold, hpid old, hkey old⟩
  | absent => exact hv
  | added pid name allday s0 e0 s1 e1 => exact hv.addCamera pid name allday s0 e0 s1 e1
  | deleted pid p hp =>
      obtain ⟨record, hrecord, -⟩ := hlinked.devlist pid p hp
      refine hv.congr rfl (fun later hl => ⟨later, hl, rfl⟩)
        (fun request hm => ⟨request, hm, rfl, rfl, rfl⟩) (fun q node hn => ?_)
      rw [node_set (lt_length_of_node hrecord) _ rfl] at hn
      split at hn
      · cases hn
      · exact .inr ⟨q, node, hn, rfl, rfl⟩

theorem Keyed.step (hv : Keyed m) (hlinked : Linked m)
    (hs : pushStep m event = some (after, out)) : Keyed after := by
  cases pushStep_cases hs with
  | call devid => exact hv.start devid
  | advance i env call after out hc move => exact hv.move hlinked hc move
  | answer r body tick request hr hopen => exact hv.answer hr
  | mail cmd seq body tick =>
      refine hv.congr (by simp) (fun later hl => ⟨later, by simpa using hl, rfl⟩)
        (fun request hm => ⟨request, by simpa using hm, rfl, rfl, rfl⟩) (fun p node hn => ?_)
      exact .inr ⟨p, node, by simpa [PushClient.node] using hn, rfl, rfl⟩
  | table event after move => exact hv.table hlinked move

theorem keyed_loggedIn (rows : List TBDeviceEx) : Keyed (loggedIn rows) :=
  loggedIn_induction _ ⟨by simp, by simp, by simp, by simp [PushClient.node]⟩
    (fun _ pid name allday s0 e0 s1 e1 hm => hm.addCamera pid name allday s0 e0 s1 e1) rows

-- Every registered client keeps both invariants.
def Registered (srv : PushServer) : Prop :=
  ∀ p ∈ srv.clientlist, Linked p.client ∧ Keyed p.client

variable {srv next : PushServer}

-- A client that leaves takes nothing along, and one that changes keeps the invariants.
theorem Registered.updateFirst (hv : Registered srv) {test : PushEntry → Bool}
    {f : PushEntry → Option PushEntry}
    (hf : ∀ p q, srv.clientlist.find? test = some p → f p = some q →
      Linked q.client ∧ Keyed q.client) :
    Registered ⟨Lib.updateFirst test f srv.clientlist⟩ := by
  intro q hq
  rcases mem_updateFirst hq with hq | ⟨p, hp, hfp⟩
  · exact hv q hq
  · exact hf p q hp hfp

theorem Registered.step (hv : Registered srv) {event : PushServerEvent}
    (hs : pushServerStep srv event = some (next, out)) : Registered next := by
  cases event with
  | login fd cmsid rows =>
      cases hs
      unfold PushServer.login
      split
      · exact hv
      · intro p hp
        rcases List.mem_append.mp hp with hp | hp
        · exact hv p hp
        · cases List.mem_singleton.mp hp
          exact ⟨linked_loggedIn rows, keyed_loggedIn rows⟩
  | client fd event =>
      simp only [pushServerStep] at hs
      split at hs
      · cases hs
      · rename_i p hp
        obtain ⟨⟨client, out'⟩, hstep, he⟩ := Option.map_eq_some_iff.mp hs
        obtain ⟨hlinked, hkeyed⟩ := hv p (List.mem_of_find?_eq_some hp)
        obtain rfl := congrArg Prod.fst he
        dsimp only
        split
        · exact hv.updateFirst fun _ _ _ h => by cases h
        · refine hv.updateFirst fun p' q hp' h => ?_
          cases h
          exact ⟨hlinked.step hstep, hkeyed.step hlinked hstep⟩
  | delClient fd =>
      cases hs
      exact hv.updateFirst fun _ _ _ h => by cases h
  | writeoff cmsid =>
      cases hs
      exact hv.updateFirst fun _ _ _ h => by cases h

-- The client is registered, the device is in its table, and this very key was issued for
-- the device by a call on this client.
def PushServer.authorised (srv : PushServer) (cmsid pid key : String) : Prop :=
  ∃ p, srv.getClient cmsid = some p ∧ (p.client.device pid).isSome ∧ p.client.issued pid key

-- The device is in the table, and nothing was stored in its record.
def PushServer.keyless (srv : PushServer) (cmsid pid : String) : Prop :=
  ∃ p node, srv.getClient cmsid = some p ∧ p.client.device pid = some node ∧ node.key = ""

theorem checkPush_eq_zero {cmsid pid key : String} : srv.checkPush cmsid pid key = "0" ↔
    ∃ p node, srv.getClient cmsid = some p ∧ p.client.device pid = some node ∧ node.key = key := by
  unfold PushServer.checkPush PushClient.checkPush
  cases hp : srv.getClient cmsid with
  | none => simp
  | some p =>
      cases hd : p.client.device pid with
      | none => simp [hd]
      | some node => simp [hd]

theorem Linked.device_pid (hv : Linked m) {pid : String} (hd : m.device pid = some node) :
    ∃ p, m.node p = some node ∧ node.pid = pid := by
  obtain ⟨p, hp, hn⟩ := Option.bind_eq_some_iff.mp hd
  obtain ⟨node', hn', hpid⟩ := hv.devlist pid p hp
  rw [hn] at hn'
  cases hn'
  exact ⟨p, hn, hpid⟩

-- In every reachable state, a key that is allowed was issued for the device, unless it is
-- the empty key of a device for which nothing was stored.
theorem checkPush_authorised_iff {history : List (PushServerEvent × List PushOutput)}
    (hrun : Run pushServerStep free {} history srv) (cmsid pid key : String) :
    (srv.checkPush cmsid pid key = "0" → srv.authorised cmsid pid key) ↔
      ¬ (key = "" ∧ srv.keyless cmsid pid) := by
  have hreg : Registered srv := by
    refine hrun.invariant (fun _ srv => Registered srv) (fun p hp => by cases hp) ?_
    intro history before event after out hv _ hs
    exact hv.step hs
  rw [checkPush_eq_zero]
  constructor
  · rintro h ⟨rfl, p, node, hp, hd, hkey⟩
    obtain ⟨p', hp', -, request, hm, -, hreq, -⟩ := h ⟨p, node, hp, hd, hkey⟩
    exact (hreg p' (List.mem_of_find?_eq_some hp')).2.requests request hm hreq
  · rintro hne ⟨p, node, hp, hd, rfl⟩
    obtain ⟨hlinked, hkeyed⟩ := hreg p (List.mem_of_find?_eq_some hp)
    obtain ⟨q, hn, rfl⟩ := hlinked.device_pid hd
    refine ⟨p, hp, by simp [hd], ?_⟩
    rcases hkeyed.nodes q node hn with hempty | hissued
    · exact absurd ⟨hempty, p, node, hp, hd, hempty⟩ hne
    · exact hissued

def pushed (cmsid pid key : String) (_ : List (PushServerEvent × List PushOutput))
    (srv : PushServer) : Bool := srv.checkPush cmsid pid key = "0"

-- The key of an answered request is allowed, and was issued.
theorem checkPush_authorised_after_push :
    ∃ history srv, Run pushServerStep free {} history srv ∧
      srv.checkPush "A" "d" "3333333333" = "0" ∧ srv.authorised "A" "d" "3333333333" := by
  obtain ⟨history, srv, run, ht⟩ := exists_run_of_ends pushServerStep free {}
    (.login 7 "A" [⟨"d", "", 1, "", "", "", ""⟩] :: [.call "d", go 0 3 false, go 0 3 true,
      go 0 3 false, reply 0 "T", go 0 3 false, go 0 3 false].map (.client 7))
    (pushed "A" "d" "3333333333") (guarded_free ..) (by decide +kernel)
  have hzero : srv.checkPush "A" "d" "3333333333" = "0" := of_decide_eq_true ht
  exact ⟨history, srv, run, hzero,
    (checkPush_authorised_iff run "A" "d" "3333333333").mpr (fun h => absurd h.1 (by decide)) hzero⟩

-- After a login no key was ever issued, and the empty one is allowed.
theorem checkPush_unauthorised :
    ¬ ∀ history srv, Run pushServerStep free {} history srv → ∀ cmsid pid key,
      srv.checkPush cmsid pid key = "0" → srv.authorised cmsid pid key := by
  intro hall
  obtain ⟨history, srv, run, ht⟩ := exists_run_of_ends pushServerStep free {}
    [.login 7 "A" [⟨"d", "", 1, "", "", "", ""⟩]]
    (fun history srv => pushed "A" "d" "" history srv &&
      srv.clientlist.all fun p => p.client.requests.isEmpty) (guarded_free ..) (by decide +kernel)
  obtain ⟨hzero, hnone⟩ := Bool.and_eq_true_iff.mp ht
  obtain ⟨p, hp, -, request, hm, -⟩ := hall history srv run "A" "d" "" (of_decide_eq_true hzero)
  have hempty := List.all_eq_true.mp hnone p (List.mem_of_find?_eq_some hp)
  rw [List.isEmpty_iff.mp hempty] at hm
  cases hm

end VideoAdapter.Adapter

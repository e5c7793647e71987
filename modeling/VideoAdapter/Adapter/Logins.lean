import VideoAdapter.Adapter.Sessions

namespace VideoAdapter.Adapter

open Lib

-- Where a call of `HandleLoginEx` stands. Between two of these points it does one thing that
-- other calls see: the look-up, one of the two queries, the insertion, the writes through the
-- pointer that `AddClient` returned, or the answer.
inductive LoginPc where
  | lookup
  | check
  | cameras (kid : String)
  | insert (kid : String) (rows : List TBDeviceEx)
  | load (kid : String) (rows : List TBDeviceEx) (pClient : Nat)
  | send (ret : Int) (kid : String) (rows : List TBDeviceEx)
  | done

structure LoginCall where
  fd : Int
  seq : Int
  req : ReqLogin
  pc : LoginPc

-- The client that the call adds.
def LoginCall.client (call : LoginCall) (tick : UInt64) (devlist : DevList) : CMSClient :=
  { fd := call.fd, cmsid := call.req.cmsid, livecount := tick, devlist, msglist := [] }

-- The client list by pointers, the next pointer that `new` gives, and the calls so far.
structure Logins where
  clients : List (Nat × CMSClient)
  next : Nat
  calls : List LoginCall

inductive LoginEvent where
  | login (fd seq : Int) (buf : Bytes)
  | advance (call : Nat) (env : LoginEnv)
  | delClient (fd : Int)
  | writeoff (cmsid : String)
  | checkState (cur : Int → UInt64) (outside : DeviceNode → Bool) (sent : Int → Bool)

-- What a step shows: which call has looked up its account, which client was inserted for
-- which account, and the frames that were sent.
structure LoginOut where
  lookedUp : Option Nat := none
  inserted : Option (Nat × String) := none
  frames : List Sent := []

abbrev LoginHistory := List (LoginEvent × LoginOut)

def loadCameras (devlist : DevList) (rows : List TBDeviceEx) : DevList :=
  rows.foldl (fun devlist r => addCamera devlist r.pid r.name r.allday r.s0 r.e0 r.s1 r.e1) devlist

namespace Logins

-- The list as a search in `clientlist_` sees it.
def server (m : Logins) : TcpServer := ⟨m.clients.map (·.2)⟩

def goto (m : Logins) (i : Nat) (pc : LoginPc) : Logins :=
  { m with calls := m.calls.modify i fun call => { call with pc } }

def delClient (m : Logins) (fd : Int) : Logins :=
  { m with clients := updateFirst (fun p => p.2.fd = fd) (fun _ => none) m.clients }

def delClientById (m : Logins) (cmsid : String) : Logins :=
  { m with clients := updateFirst (fun p => p.2.cmsid = cmsid) (fun _ => none) m.clients }

def addClient (m : Logins) (client : CMSClient) : Logins :=
  { m with clients := m.clients ++ [(m.next, client)], next := m.next + 1 }

-- Writes through a pointer; no result if the client is deleted.
def addCameras (m : Logins) (pClient : Nat) (rows : List TBDeviceEx) : Option Logins :=
  if rows = [] then some m
  else if m.clients.any fun p => p.1 = pClient then
    let load := fun p : CMSClient => { p with devlist := loadCameras p.devlist rows }
    some { m with clients := updateFirst (·.1 = pClient) (fun p => some (p.1, load p.2)) m.clients }
  else none

def checkStates (m : Logins) (cur : Int → UInt64) (outside : DeviceNode → Bool)
    (sent : Int → Bool) : Logins × List Sent :=
  let passes := m.clients.map fun p => (p.1, p.2.checkState (cur p.2.fd) outside (sent p.2.fd))
  ({ m with clients := passes.filterMap fun p => if p.2.1 then some (p.1, p.2.2.1) else none },
    passes.flatMap fun p => p.2.2.2.map (p.2.2.1.fd, ·))

-- One step of a call. A copy that leaves its buffer has no result.
def advance (m : Logins) (i : Nat) (call : LoginCall) (env : LoginEnv) :
    Option (Logins × LoginOut) :=
  match call.pc with
  | .lookup =>
      let pc := if (m.server.getClient call.req.cmsid).isSome then .send 4 "" [] else .check
      some (m.goto i pc, { lookedUp := some i })
  | .check =>
      let (ret, kid) := DBHelper.checkLogin env.ada call.req.password
      some (m.goto i (if ret = 0 then .cameras kid else .send ret "" []), {})
  | .cameras kid =>
      if DBHelper.overruns env.cam then none
      else match DBHelper.getGroupInfoEx env.cam with
        | none => some (m.goto i (.send 0 kid []), {})
        | some rows => some (m.goto i (.insert kid rows), {})
  | .insert kid rows =>
      some ((m.addClient (call.client env.tick ∅)).goto i (.load kid rows m.next),
        { inserted := some (m.next, call.req.cmsid) })
  | .load kid rows pClient =>
      if idsFit rows then
        (m.addCameras pClient rows).map fun m => (m.goto i (.send 0 kid rows), {})
      else none
  | .send ret kid rows =>
      if ret = 0 ∧ ¬ kidFits kid then none
      else if env.sent then
        some (m.goto i .done, { frames := [(call.fd, .respLogin call.seq ret rows.length
          (if ret = 0 then kid else "") (rows.map (·.pid)))] })
      else some ((m.delClient call.fd).goto i .done, {})
  | .done => none

end Logins

-- `HandlerRead` calls `HandleLoginEx` for a login of the right size on a descriptor without
-- a client.
def loginStep (m : Logins) : LoginEvent → Option (Logins × LoginOut)
  | .login fd seq buf =>
      if (m.server.findClient fd).isSome ∨ buf.length ≠ sizeofReqLogin then none
      else some ({ m with calls := m.calls ++ [⟨fd, seq, ReqLogin.decode buf, .lookup⟩] }, {})
  | .advance i env =>
      match m.calls[i]? with
      | none => none
      | some call => m.advance i call env
  | .delClient fd => some (m.delClient fd, {})
  | .writeoff cmsid => some (m.delClientById cmsid, {})
  | .checkState cur outside sent =>
      let (m, frames) := m.checkStates cur outside sent
      some (m, { frames })

def noLogins : Logins := { clients := [], next := 0, calls := [] }

-- The clients that were inserted for the account after the call had looked it up.
def insertedSince (i : Nat) (cmsid : String) : LoginHistory → List Nat
  | [] => []
  | (_, out) :: history =>
      if out.lookedUp = some i then []
      else (out.inserted.toList.filter fun p => p.2 = cmsid).map (·.1) ++ insertedSince i cmsid history

-- A call may insert its client if none of the clients that were inserted for its account
-- since its look-up is in the list.
def exclusive (history : LoginHistory) (m : Logins) : LoginEvent → Prop
  | .advance i _ => ∀ call kid rows, m.calls[i]? = some call → call.pc = .insert kid rows →
      ∀ p ∈ insertedSince i call.req.cmsid history, p ∉ m.clients.map (·.1)
  | _ => True

def Logins.cmsids (m : Logins) : List String := m.clients.map (·.2.cmsid)

-- Which pointer is in the list for which account.
def Logins.keys (m : Logins) : List (Nat × String) := m.clients.map fun p => (p.1, p.2.cmsid)

-- Between the look-up and the insertion.
def LoginPc.pending : LoginPc → Bool
  | .check => true
  | .cameras _ => true
  | .insert _ _ => true
  | _ => false

def Logins.Pending (m : Logins) (i : Nat) (cmsid : String) : Prop :=
  ∃ call, m.calls[i]? = some call ∧ call.pc.pending = true ∧ call.req.cmsid = cmsid

-- A step that inserts no client. A call gets between its look-up and its insertion only by a
-- look-up that has found nobody.
structure Logins.Keeps (m after : Logins) (out : LoginOut) : Prop where
  keys : after.keys.Sublist m.keys
  next : after.next = m.next
  inserted : out.inserted = none
  pending : ∀ j cmsid, after.Pending j cmsid →
    (out.lookedUp = some j ∧ ∀ p, (p, cmsid) ∉ after.keys) ∨
    (out.lookedUp ≠ some j ∧ m.Pending j cmsid)

structure Logins.Inserts (m after : Logins) (out : LoginOut) (cmsid : String) : Prop where
  keys : after.keys = m.keys ++ [(m.next, cmsid)]
  next : after.next = m.next + 1
  inserted : out.inserted = some (m.next, cmsid)
  lookedUp : out.lookedUp = none
  pending : ∀ j other, after.Pending j other → m.Pending j other

variable {m base after : Logins} {out : LoginOut} {i j : Nat} {call : LoginCall} {cmsid : String}
  {pc : LoginPc} {env : LoginEnv} {event : LoginEvent} {history : LoginHistory}

theorem cmsids_eq (m : Logins) : m.cmsids = m.keys.map (·.2) := by
  simp [Logins.cmsids, Logins.keys, Function.comp_def]

theorem pointers_eq (m : Logins) : m.clients.map (·.1) = m.keys.map (·.1) := by
  simp [Logins.keys, Function.comp_def]

theorem pending_goto (hc : m.calls[i]? = some call) (h : (m.goto i pc).Pending j cmsid) :
    (j = i ∧ pc.pending = true ∧ call.req.cmsid = cmsid) ∨ (j ≠ i ∧ m.Pending j cmsid) := by
  obtain ⟨moved, hm, hp, hid⟩ := h
  simp only [Logins.goto, List.getElem?_modify] at hm
  by_cases hj : j = i
  · subst hj
    rw [hc] at hm
    simp only [if_true, Option.map_eq_map, Option.map_some, Option.some.injEq] at hm
    subst hm
    exact .inl ⟨rfl, hp, hid⟩
  · refine .inr ⟨hj, moved, ?_, hp, hid⟩
    simpa [Ne.symm hj] using hm

-- A move of one call, over a change that takes no new client into the list.
theorem Logins.Keeps.move (hc : m.calls[i]? = some call) (hkeys : base.keys.Sublist m.keys)
    (hcalls : base.calls = m.calls) (hnext : base.next = m.next)
    (hpc : pc.pending = true → call.pc.pending = true) (frames : List Sent) :
    m.Keeps (base.goto i pc) { frames } := by
  refine ⟨hkeys, hnext, rfl, fun j cmsid hp => .inr ⟨by simp, ?_⟩⟩
  rcases pending_goto (hcalls ▸ hc) hp with ⟨rfl, hmoved, hid⟩ | ⟨-, hother⟩
  · exact ⟨call, hc, hpc hmoved, hid⟩
  · unfold Logins.Pending at hother ⊢
    rwa [hcalls] at hother

theorem Logins.Keeps.same_calls (hkeys : after.keys.Sublist m.keys)
    (hcalls : after.calls = m.calls) (hnext : after.next = m.next) (frames : List Sent) :
    m.Keeps after { frames } := by
  refine ⟨hkeys, hnext, rfl, fun j cmsid hp => .inr ⟨by simp, ?_⟩⟩
  unfold Logins.Pending at hp ⊢
  rwa [hcalls] at hp

theorem keys_updateFirst_sublist (m : Logins) (test : Nat × CMSClient → Bool)
    (f : Nat × CMSClient → Option (Nat × CMSClient))
    (hf : ∀ x y, f x = some y → (y.1, y.2.cmsid) = (x.1, x.2.cmsid)) :
    (Logins.keys { m with clients := updateFirst test f m.clients }).Sublist m.keys :=
  map_updateFirst_sublist hf m.clients

theorem delClient_keys (m : Logins) (fd : Int) : (m.delClient fd).keys.Sublist m.keys :=
  keys_updateFirst_sublist m _ _ fun _ _ h => by cases h

theorem delClientById_keys (m : Logins) (cmsid : String) :
    (m.delClientById cmsid).keys.Sublist m.keys :=
  keys_updateFirst_sublist m _ _ fun _ _ h => by cases h

theorem addCameras_keeps {pClient : Nat} {rows : List TBDeviceEx}
    (h : m.addCameras pClient rows = some after) :
    after.keys.Sublist m.keys ∧ after.calls = m.calls ∧ after.next = m.next := by
  unfold Logins.addCameras at h
  split at h
  · cases h
    exact ⟨.refl _, rfl, rfl⟩
  · split at h
    · cases h
      refine ⟨keys_updateFirst_sublist m _ _ fun x y hxy => ?_, rfl, rfl⟩
      cases hxy
      rfl
    · cases h

theorem checkStates_keys (m : Logins) (cur : Int → UInt64) (outside : DeviceNode → Bool)
    (sent : Int → Bool) : (m.checkStates cur outside sent).1.keys.Sublist m.keys := by
  unfold Logins.checkStates Logins.keys
  dsimp only
  induction m.clients with
  | nil => exact .slnil
  | cons p rest ih =>
      have hid := congrArg Prod.snd (checkState_key p.2 (cur p.2.fd) outside (sent p.2.fd))
      by_cases hk : (p.2.checkState (cur p.2.fd) outside (sent p.2.fd)).1 = true
      · simpa [hk, show (p.2.checkState (cur p.2.fd) outside (sent p.2.fd)).2.1.cmsid = p.2.cmsid
          from hid] using ih
      · simpa [hk] using ih.cons _

theorem not_mem_keys_of_getClient {cmsid : String} (h : m.server.getClient cmsid = none) (p : Nat) :
    (p, cmsid) ∉ m.keys := by
  intro hm
  obtain ⟨client, hclient, he⟩ := List.mem_map.mp hm
  have hno := List.find?_eq_none.mp h client.2 (List.mem_map_of_mem hclient)
  exact hno (by simpa using congrArg Prod.snd he)

-- A call that goes on after its look-up has found no client for its account.
theorem keeps_lookup (hc : m.calls[i]? = some call) :
    m.Keeps (m.goto i (if (m.server.getClient call.req.cmsid).isSome then .send 4 "" [] else .check))
      { lookedUp := some i } := by
  refine ⟨.refl _, rfl, rfl, fun j cmsid hp => ?_⟩
  rcases pending_goto hc hp with ⟨rfl, hmoved, rfl⟩ | ⟨hj, hother⟩
  · have hnone : m.server.getClient call.req.cmsid = none := by
      by_contra hsome
      simp [Option.isSome_iff_ne_none.mpr hsome, LoginPc.pending] at hmoved
    exact .inl ⟨rfl, not_mem_keys_of_getClient hnone⟩
  · exact .inr ⟨by simpa using Ne.symm hj, hother⟩

-- What one step of a call can do to the list and to the calls.
theorem advance_cases (hc : m.calls[i]? = some call)
    (h : m.advance i call env = some (after, out)) :
    (m.Keeps after out ∧ ∀ kid rows, call.pc ≠ .insert kid rows) ∨
    ((∃ kid rows, call.pc = .insert kid rows) ∧ m.Inserts after out call.req.cmsid) := by
  unfold Logins.advance at h
  cases hpc : call.pc with
  | lookup =>
      simp only [hpc] at h
      cases h
      exact .inl ⟨keeps_lookup hc, by simp⟩
  | check =>
      simp only [hpc] at h
      cases h
      refine .inl ⟨.move hc (.refl _) rfl rfl (fun _ => ?_) [], by simp⟩
      rw [hpc]
      rfl
  | cameras kid =>
      simp only [hpc] at h
      split at h
      · cases h
      · split at h
        · cases h
          exact .inl ⟨.move hc (.refl _) rfl rfl (by simp [LoginPc.pending]) [], by simp⟩
        · cases h
          refine .inl ⟨.move hc (.refl _) rfl rfl (fun _ => ?_) [], by simp⟩
          rw [hpc]
          rfl
  | insert kid rows =>
      simp only [hpc] at h
      cases h
      refine .inr ⟨⟨kid, rows, rfl⟩, ?_, rfl, rfl, rfl, fun j other hp => ?_⟩
      · simp [Logins.keys, Logins.goto, Logins.addClient, LoginCall.client]
      · rcases pending_goto (m := m.addClient _) hc hp with ⟨-, hmoved, -⟩ | ⟨-, hother⟩
        · cases hmoved
        · exact hother
  | load kid rows pClient =>
      simp only [hpc] at h
      split at h
      · obtain ⟨loaded, hload, he⟩ := Option.map_eq_some_iff.mp h
        obtain ⟨hkeys, hcalls, hnext⟩ := addCameras_keeps hload
        cases he
        exact .inl ⟨.move hc hkeys hcalls hnext (by simp [LoginPc.pending]) [], by simp⟩
      · cases h
  | send ret kid rows =>
      simp only [hpc] at h
      split at h
      · cases h
      · split at h
        · cases h
          exact .inl ⟨.move hc (.refl _) rfl rfl (by simp [LoginPc.pending]) _, by simp⟩
        · cases h
          exact .inl ⟨.move hc (delClient_keys m call.fd) rfl rfl (by simp [LoginPc.pending]) [],
            by simp⟩
  | done =>
      simp only [hpc] at h
      cases h

-- A step inserts no client, or is the insertion of a call for its account.
theorem loginStep_cases (h : loginStep m event = some (after, out)) :
    (m.Keeps after out ∧ ∀ history, exclusive history m event) ∨
    ∃ i env call kid rows, event = .advance i env ∧ m.calls[i]? = some call ∧
      call.pc = .insert kid rows ∧ m.Inserts after out call.req.cmsid := by
  cases event with
  | login fd seq buf =>
      simp only [loginStep] at h
      split at h
      · cases h
      · cases h
        refine .inl ⟨⟨.refl _, rfl, rfl, fun j cmsid hp => .inr ⟨by simp, ?_⟩⟩, fun _ => trivial⟩
        obtain ⟨call, hcall, hpending, hid⟩ := hp
        rw [List.getElem?_append] at hcall
        split at hcall
        · exact ⟨call, hcall, hpending, hid⟩
        · obtain rfl := List.mem_singleton.mp (List.mem_of_getElem? hcall)
          cases hpending
  | advance i env =>
      simp only [loginStep] at h
      split at h
      · cases h
      · rename_i call hc
        rcases advance_cases hc h with ⟨hkeeps, hpc⟩ | ⟨⟨kid, rows, hpc⟩, hinserts⟩
        · refine .inl ⟨hkeeps, fun history call' kid rows hc' hpc' => ?_⟩
          rw [hc] at hc'
          cases hc'
          exact absurd hpc' (hpc kid rows)
        · exact .inr ⟨i, env, call, kid, rows, rfl, hc, hpc, hinserts⟩
  | delClient fd =>
      cases h
      exact .inl ⟨.same_calls (delClient_keys m fd) rfl rfl [], fun _ => trivial⟩
  | writeoff cmsid =>
      cases h
      exact .inl ⟨.same_calls (delClientById_keys m cmsid) rfl rfl [], fun _ => trivial⟩
  | checkState cur outside sent =>
      cases h
      exact .inl ⟨.same_calls (checkStates_keys m cur outside sent) rfl rfl _, fun _ => trivial⟩

def insertions (history : LoginHistory) : List (Nat × String) :=
  history.flatMap fun record => record.2.inserted.toList

theorem mem_insertions_of_insertedSince {p : Nat} (h : p ∈ insertedSince i cmsid history) :
    (p, cmsid) ∈ insertions history := by
  induction history with
  | nil => simp [insertedSince] at h
  | cons record history ih =>
      simp only [insertedSince] at h
      split at h
      · simp at h
      · rcases List.mem_append.mp h with h | h
        · obtain ⟨⟨q, other⟩, hq, rfl⟩ := List.mem_map.mp h
          obtain ⟨hmem, hid⟩ := List.mem_filter.mp hq
          simp only [decide_eq_true_eq] at hid
          subst hid
          exact List.mem_flatMap.mpr ⟨record, List.mem_cons_self, hmem⟩
        · exact List.mem_append_right _ (ih h)

-- What the record of the run says about the list: every client in it was inserted for its
-- account under a pointer of its own, and while a call stands between its look-up and its
-- insertion, the clients of its account were all inserted since the look-up.
structure LoginsTracked (history : LoginHistory) (m : Logins) : Prop where
  recorded : ∀ k ∈ m.keys, k ∈ insertions history
  fresh : ∀ k ∈ insertions history, k.1 < m.next
  once : ∀ p c c', (p, c) ∈ insertions history → (p, c') ∈ insertions history → c = c'
  pending : ∀ i c p, m.Pending i c → (p, c) ∈ m.keys → p ∈ insertedSince i c history

theorem LoginsTracked.init : LoginsTracked [] noLogins where
  recorded := by simp [noLogins, Logins.keys]
  fresh := by simp [insertions]
  once := by simp [insertions]
  pending := by simp [noLogins, Logins.keys]

theorem LoginsTracked.keep (h : LoginsTracked history m) (hk : m.Keeps after out) :
    LoginsTracked ((event, out) :: history) after := by
  have hins : insertions ((event, out) :: history) = insertions history := by
    simp [insertions, hk.inserted]
  refine ⟨?_, ?_, ?_, ?_⟩
  · rw [hins]
    exact fun k hm => h.recorded k (hk.keys.subset hm)
  · rw [hins, hk.next]
    exact h.fresh
  · rw [hins]
    exact h.once
  · intro i c p hp hm
    rcases hk.pending i c hp with ⟨-, hnone⟩ | ⟨hlook, hbefore⟩
    · exact absurd hm (hnone p)
    · simpa [insertedSince, hlook, hk.inserted] using h.pending i c p hbefore (hk.keys.subset hm)

theorem LoginsTracked.insert (h : LoginsTracked history m) (hk : m.Inserts after out cmsid) :
    LoginsTracked ((event, out) :: history) after := by
  have hins : insertions ((event, out) :: history) = (m.next, cmsid) :: insertions history := by
    simp [insertions, hk.inserted]
  refine ⟨?_, ?_, ?_, ?_⟩
  · intro k hm
    rw [hins]
    rw [hk.keys] at hm
    rcases List.mem_append.mp hm with hm | hm
    · exact List.mem_cons_of_mem _ (h.recorded k hm)
    · rw [List.mem_singleton.mp hm]
      exact List.mem_cons_self
  · intro k hm
    rw [hins] at hm
    rw [hk.next]
    rcases List.mem_cons.mp hm with rfl | hm
    · exact Nat.lt_succ_self _
    · exact Nat.lt_succ_of_lt (h.fresh k hm)
  · intro p c c' hc hc'
    rw [hins] at hc hc'
    rcases List.mem_cons.mp hc with he | hc <;> rcases List.mem_cons.mp hc' with he' | hc'
    · rw [← he'] at he
      exact congrArg Prod.snd he
    · cases he
      exact absurd (h.fresh _ hc') (Nat.lt_irrefl _)
    · cases he'
      exact absurd (h.fresh _ hc) (Nat.lt_irrefl _)
    · exact h.once p c c' hc hc'
  · intro i c p hp hm
    rw [hk.keys] at hm
    have hbefore := hk.pending i c hp
    simp only [insertedSince, hk.lookedUp, hk.inserted, reduceCtorEq, if_false]
    rcases List.mem_append.mp hm with hm | hm
    · exact List.mem_append_right _ (h.pending i c p hbefore hm)
    · cases List.mem_singleton.mp hm
      simp

theorem LoginsTracked.step (h : LoginsTracked history m) (hs : loginStep m event = some (after, out)) :
    LoginsTracked ((event, out) :: history) after := by
  rcases loginStep_cases hs with ⟨hk, -⟩ | ⟨-, -, call, -, -, -, -, -, hk⟩
  · exact h.keep hk
  · exact h.insert hk

-- The insertion adds a second client of the account exactly if one that was inserted since
-- the look-up is in the list.
theorem LoginsTracked.mem_cmsids_iff (h : LoginsTracked history m) (hp : m.Pending i cmsid) :
    cmsid ∈ m.cmsids ↔ ∃ p ∈ insertedSince i cmsid history, p ∈ m.clients.map (·.1) := by
  rw [cmsids_eq, pointers_eq]
  constructor
  · intro hm
    obtain ⟨⟨p, c⟩, hk, rfl⟩ := List.mem_map.mp hm
    exact ⟨p, h.pending i c p hp hk, List.mem_map_of_mem hk⟩
  · rintro ⟨p, hsince, hm⟩
    obtain ⟨⟨q, c⟩, hk, rfl⟩ := List.mem_map.mp hm
    have hsame := h.once q c cmsid (h.recorded _ hk) (mem_insertions_of_insertedSince hsince)
    subst hsame
    exact List.mem_map_of_mem hk

theorem step_nodup_iff (h : LoginsTracked history m) (hd : m.cmsids.Nodup)
    (hs : loginStep m event = some (after, out)) :
    exclusive history m event ↔ after.cmsids.Nodup := by
  rcases loginStep_cases hs with ⟨hk, hguard⟩ | ⟨i, env, call, kid, rows, rfl, hc, hpc, hk⟩
  · refine iff_of_true (hguard history) ?_
    rw [cmsids_eq] at hd ⊢
    exact hd.sublist (hk.keys.map _)
  · have hafter : after.cmsids = m.cmsids ++ [call.req.cmsid] := by
      rw [cmsids_eq, cmsids_eq, hk.keys]
      simp
    have hp : m.Pending i call.req.cmsid := ⟨call, hc, by simp [hpc, LoginPc.pending], rfl⟩
    have hnodup : after.cmsids.Nodup ↔ call.req.cmsid ∉ m.cmsids := by
      rw [hafter, List.nodup_append_comm]
      simp [hd]
    rw [hnodup, h.mem_cmsids_iff hp]
    constructor
    · rintro hguard ⟨p, hsince, hm⟩
      exact hguard call kid rows hc hpc p hsince hm
    · intro hno call' kid' rows' hc' _ p hsince hm
      rw [hc] at hc'
      cases hc'
      exact hno ⟨p, hsince, hm⟩

-- No account is in the list twice, at any point of a run of concurrent logins and removals,
-- exactly if no call inserts its client while one that was inserted for the account since
-- its own look-up is in the list.
theorem accounts_unique_iff (run : Run loginStep free noLogins history m) :
    Run loginStep exclusive noLogins history m ↔
      ∀ earlier state, earlier <:+ history → Run loginStep free noLogins earlier state →
        state.cmsids.Nodup := by
  refine run.guarded_iff_under LoginsTracked (fun _ m => m.cmsids.Nodup) .init ?_ ?_ ?_
  · exact fun history before event after out h hs => h.step hs
  · simp [noLogins, Logins.cmsids]
  · exact fun history before event after out htracked hd hs => step_nodup_iff htracked hd hs

-- A test that is enough for the insertions to exclude each other.
def insertsAlone (history : LoginHistory) (m : Logins) : LoginEvent → Bool
  | .advance i _ => m.calls[i]?.all fun call =>
      match call.pc with
      | .insert _ _ => (insertedSince i call.req.cmsid history).all
          fun p => !(m.clients.map (·.1)).contains p
      | _ => true
  | _ => true

theorem exclusive_of_insertsAlone (history : LoginHistory) (m : Logins) (event : LoginEvent)
    (h : insertsAlone history m event = true) : exclusive history m event := by
  cases event with
  | advance i env =>
      intro call kid rows hc hpc p hp hm
      simp only [insertsAlone, hc, Option.all_some, hpc, List.all_eq_true] at h
      have hno := h p hp
      simp [hm] at hno
  | login fd seq buf => trivial
  | delClient fd => trivial
  | writeoff cmsid => trivial
  | checkState cur outside sent => trivial

-- A call begins on a descriptor, and the call of this number takes some steps.
def loginOn (fd : Int) (cmsid : String) : LoginEvent :=
  .login fd 1 (ReqLogin.encode ⟨cmsid, "k"⟩)

def advances (i n : Nat) : List LoginEvent :=
  List.replicate n (.advance i (loginEnv "k" (.rows [allDayRow "d"])))

-- Two calls look up one account; the client of the first is dropped before the second
-- inserts its own.
theorem accounts_unique_after_drop :
    ∃ history m, Run loginStep exclusive noLogins history m ∧ m.cmsids = ["A"] ∧
      ∀ earlier state, earlier <:+ history → Run loginStep free noLogins earlier state →
        state.cmsids.Nodup := by
  obtain ⟨history, m, run, ht⟩ := exists_run_of_ends loginStep exclusive noLogins
    ([loginOn 7 "A", loginOn 8 "A"] ++ advances 0 1 ++ advances 1 3 ++ advances 0 5 ++
      [.delClient 7] ++ advances 1 3)
    (fun _ m => m.cmsids == ["A"])
    (guarded_of_passes insertsAlone exclusive_of_insertsAlone (by decide +kernel)) (by decide +kernel)
  refine ⟨history, m, run, by simpa using ht, ?_⟩
  exact (accounts_unique_iff run.unguarded).mp run

-- Two adapters log in to one account: both look it up before either is in the list, and both
-- are inserted.
theorem accounts_not_unique :
    ¬ ∀ history m, Run loginStep free noLogins history m → m.cmsids.Nodup := by
  intro hall
  obtain ⟨history, m, run, ht⟩ := exists_run_of_ends loginStep free noLogins
    ([loginOn 7 "A", loginOn 8 "A"] ++ advances 0 1 ++ advances 1 1 ++ advances 0 5 ++ advances 1 5)
    (fun _ m => m.cmsids == ["A", "A"]) (guarded_free _ _ _) (by decide +kernel)
  have hd := hall history m run
  rw [show m.cmsids = ["A", "A"] by simpa using ht] at hd
  simp at hd

end VideoAdapter.Adapter

import Mathlib.Logic.Relation
import VideoAdapter.Lib.Run
import VideoAdapter.Adapter.Logins

namespace VideoAdapter.Adapter

open Lib

-- Where a call of `HandleLoginEx` stands. From `AddClient` on it loads one camera after the other
-- through the pointer it was given. It ends with the answer sent, or lost with the connection.
inductive GreetPhase where
  | lookup
  | check
  | cameras (kid : String)
  | insert (kid : String)
  | load (kid : String) (pClient : Nat)
  | send (ret : Int) (kid : String)
  | done
  | lost
deriving DecidableEq, Repr

-- A login on a connection of its own, with the camera rows and the number of those loaded.
structure Greeting where
  fd : Int
  seq : Int
  req : ReqLogin
  rows : List TBDeviceEx := []
  loaded : Nat := 0
  phase : GreetPhase := .lookup
deriving DecidableEq, Repr

-- What another thread wants from a client.
inductive ClientRequest where
  | notifyPush (devid : String) (draws : Nat → Nat)
  | notifyStopPush (devid : String) (draws : Nat → Nat)
  | addCamera (pid name : String) (allday : Int) (s0 e0 s1 e1 : String) (draws : Nat → Nat)
  | delCamera (pid : String) (draws : Nat → Nat)
  | modifyCamera (pid : String) (allday : Int) (s0 e0 s1 e1 : String)
  | checkState (cur : UInt64) (outside : DeviceNode → Bool)

inductive RequestPhase where
  | look
  | send (frame : Outgoing)
  | done
deriving DecidableEq, Repr

-- A request that has found its client: the client's login, its pointer, and where it stands.
structure ClientCall where
  login : Nat
  pClient : Nat
  request : ClientRequest
  phase : RequestPhase

-- The clients by pointers, each with the login that made it; a deleted one is `none`.
structure Reception where
  heap : List (Option (Nat × CMSClient)) := []
  clientlist : List Nat := []
  logins : List Greeting := []
  requests : List ClientCall := []

inductive GreetEvent where
  | login (fd seq : Int) (buf : Bytes)
  | advance (login : Nat) (env : LoginEnv)
  | request (cmsid : String) (request : ClientRequest)
  | checkState (pClient : Nat) (cur : UInt64) (outside : DeviceNode → Bool)
  | serve (request : Nat) (sent : Bool)

-- The frames with the logins on whose connections they were sent, and the logins as they stood
-- when a request looked at their clients.
structure GreetOut where
  frames : List (Nat × Outgoing) := []
  looks : List Greeting := []

abbrev GreetHistory := List (GreetEvent × GreetOut)

-- The device table after the region under `devlock_`, and the frame that follows it.
def ClientRequest.look (client : CMSClient) : ClientRequest → DevList × Option Outgoing
  | .notifyPush devid draws => match client.devlist[devid]? with
      | none => (client.devlist, none)
      | some pItem =>
          (client.devlist, if pItem.state = 2 then none else some (pushRequest devid draws))
  | .notifyStopPush devid draws => match client.devlist[devid]? with
      | none => (client.devlist, none)
      | some pItem => (client.devlist,
          if pItem.state = 2 then some (.reqStopPush (generalSeqnumber draws) devid) else none)
  | .addCamera pid name allday s0 e0 s1 e1 draws =>
      (Adapter.addCamera client.devlist pid name allday s0 e0 s1 e1,
        some (.notifyDeviceChange (generalSeqnumber draws) 1 pid))
  | .delCamera pid draws => match client.devlist[pid]? with
      | none => (client.devlist, none)
      | some _ => (Adapter.delCamera client.devlist pid,
          some (.notifyDeviceChange (generalSeqnumber draws) 0 pid))
  | .modifyCamera pid allday s0 e0 s1 e1 =>
      (Adapter.modifyCamera client.devlist pid allday s0 e0 s1 e1, none)
  | .checkState _ outside =>
      let pids := (client.devlist.values.filter (stopped outside)).map (·.pid)
      (stopDue outside client.devlist, if pids = [] then none else some (.groupStopPush pids))

-- The heartbeat is tested before the table is looked at.
def ClientRequest.expired (client : CMSClient) : ClientRequest → Bool
  | .checkState cur _ => decide (cur - client.livecount > 20 * 1000)
  | _ => false

namespace Reception

def client (s : Reception) (p : Nat) : Option (Nat × CMSClient) := s.heap[p]?.join

def find (s : Reception) (test : CMSClient → Bool) : Option Nat :=
  s.clientlist.find? fun p => (s.client p).any fun entry => test entry.2

def delClient (s : Reception) (fd : Int) : Reception :=
  match s.find fun p => p.fd == fd with
  | none => s
  | some p => { s with clientlist := s.clientlist.erase p, heap := s.heap.set p none }

def goto (s : Reception) (i : Nat) (login : Greeting) : Reception :=
  { s with logins := s.logins.set i login }

def setDevlist (s : Reception) (p : Nat) (entry : Nat × CMSClient) (devlist : DevList) : Reception :=
  { s with heap := s.heap.set p (some (entry.1, { entry.2 with devlist })) }

-- `new CMSClient` and its entry in the list.
def addClient (s : Reception) (i : Nat) (client : CMSClient) : Reception :=
  { s with heap := s.heap ++ [some (i, client)], clientlist := s.clientlist ++ [s.heap.length] }

-- One turn of the loading loop. A deleted client has no result.
def loadNext (s : Reception) (i : Nat) (login : Greeting) (kid : String) (p : Nat) : Option Reception :=
  match login.rows[login.loaded]? with
  | none => some (s.goto i { login with phase := .send 0 kid })
  | some r => (s.client p).map fun entry =>
      (s.setDevlist p entry (Adapter.addCamera entry.2.devlist r.pid r.name r.allday r.s0 r.e0 r.s1 r.e1)).goto i
        { login with loaded := login.loaded + 1 }

-- One step of a login. A copy that leaves its buffer has no result.
def advance (s : Reception) (i : Nat) (login : Greeting) (env : LoginEnv) : Option (Reception × GreetOut) :=
  match login.phase with
  | .lookup =>
      let phase := if (s.find fun p => p.cmsid == login.req.cmsid).isSome then .send 4 "" else .check
      some (s.goto i { login with phase }, {})
  | .check =>
      let (ret, kid) := DBHelper.checkLogin env.ada login.req.password
      some (s.goto i { login with phase := if ret = 0 then .cameras kid else .send ret "" }, {})
  | .cameras kid =>
      if DBHelper.overruns env.cam then none
      else match DBHelper.getGroupInfoEx env.cam with
        | none => some (s.goto i { login with phase := .send 0 kid }, {})
        | some rows => some (s.goto i { login with rows, phase := .insert kid }, {})
  | .insert kid =>
      let client : CMSClient := ⟨login.fd, login.req.cmsid, env.tick, ∅, []⟩
      some ((s.addClient i client).goto i { login with phase := .load kid s.heap.length }, {})
  | .load kid p =>
      if idsFit login.rows then (s.loadNext i login kid p).map (·, {}) else none
  | .send ret kid =>
      if ret = 0 ∧ ¬ kidFits kid then none
      else if env.sent then
        some (s.goto i { login with phase := .done },
          { frames := [(i, .respLogin login.seq ret login.rows.length (if ret = 0 then kid else "")
            (login.rows.map (·.pid)))] })
      else some ((s.delClient login.fd).goto i { login with phase := .lost }, {})
  | .done => none
  | .lost => none

def enter (s : Reception) (p : Nat) (request : ClientRequest) : Option Reception :=
  (s.client p).map fun entry =>
    { s with requests := s.requests ++ [⟨entry.1, p, request, .look⟩] }

def answerTo (s : Reception) (r : Nat) (call : ClientCall) (phase : RequestPhase) : Reception :=
  { s with requests := s.requests.set r { call with phase } }

-- One step of a request.
def serve (s : Reception) (r : Nat) (call : ClientCall) (sent : Bool) : Option (Reception × GreetOut) :=
  match call.phase with
  | .look => (s.client call.pClient).map fun entry =>
      if call.request.expired entry.2 then ((s.delClient entry.2.fd).answerTo r call .done, {})
      else
        let (devlist, frame) := call.request.look entry.2
        let phase := match frame with
          | none => .done
          | some frame => .send frame
        ((s.setDevlist call.pClient entry devlist).answerTo r call phase,
          { looks := s.logins[call.login]?.toList })
  | .send frame =>
      if sent then some (s.answerTo r call .done, { frames := [(call.login, frame)] })
      else (s.client call.pClient).map fun entry =>
        ((s.delClient entry.2.fd).answerTo r call .done, {})
  | .done => none

end Reception

def greetStep (s : Reception) : GreetEvent → Option (Reception × GreetOut)
  | .login fd seq buf =>
      if (s.find fun p => p.fd == fd).isSome ∨ buf.length ≠ sizeofReqLogin then none
      else some ({ s with logins := s.logins ++ [{ fd, seq, req := ReqLogin.decode buf }] }, {})
  | .advance i env => s.logins[i]?.bind fun login => s.advance i login env
  | .request cmsid request => match s.find fun p => p.cmsid == cmsid with
      | none => some (s, {})
      | some p => (s.enter p request).map (·, {})
  -- the pass of `Run` goes through the list itself
  | .checkState p cur outside =>
      if p ∈ s.clientlist then (s.enter p (.checkState cur outside)).map (·, {}) else none
  | .serve r sent => s.requests[r]?.bind fun call => s.serve r call sent

-- The login has sent its answer.
def Reception.Answered (s : Reception) (i : Nat) : Prop :=
  ∃ login, s.logins[i]? = some login ∧ login.phase = .done

-- No request takes hold of a client before the login that made it has sent its answer.
def afterAnswer (_ : GreetHistory) (s : Reception) : GreetEvent → Prop
  | .request cmsid _ => ∀ p entry, s.find (fun p => p.cmsid == cmsid) = some p →
      s.client p = some entry → s.Answered entry.1
  | .checkState p _ _ => ∀ entry, s.client p = some entry → s.Answered entry.1
  | _ => True

-- The frames sent on the connection of a login, the first one first.
def framesOn (i : Nat) (history : GreetHistory) : List Outgoing :=
  (history.reverse.flatMap fun entry => entry.2.frames).filterMap fun sent =>
    if sent.1 = i then some sent.2 else none

-- The first frame on a connection is the answer to its login, and no request has looked at a
-- client with only a part of its cameras.
structure AnswersFirst (history : GreetHistory) (s : Reception) : Prop where
  first : ∀ (i : Nat) (frame : Outgoing), (framesOn i history).head? = some frame →
    ∃ login ret resv, s.logins[i]? = some login ∧
      frame = .respLogin login.seq ret login.rows.length resv (login.rows.map (·.pid))
  looks : ∀ entry ∈ history, ∀ login ∈ entry.2.looks, login.loaded = login.rows.length

-- How many of its cameras a login has loaded.
def Greeting.Counted (login : Greeting) : Prop :=
  match login.phase with
  | .lookup | .check | .cameras _ => login.loaded = 0 ∧ login.rows = []
  | .insert _ => login.loaded = 0
  | .load _ _ => login.loaded ≤ login.rows.length
  | .send _ _ | .done | .lost => login.loaded = login.rows.length

structure GreetInvariant (history : GreetHistory) (s : Reception) : Prop extends
    AnswersFirst history s where
  counted : ∀ login ∈ s.logins, login.Counted
  answered : ∀ i, s.Answered i ↔ framesOn i history ≠ []
  requests : ∀ call ∈ s.requests, s.Answered call.login

-- The steps of a login that follow each other with nothing in between.
abbrev Greets (i : Nat) : Reception → Reception → Prop :=
  Relation.ReflTransGen fun before after =>
    ∃ env out, greetStep before (.advance i env) = some (after, out)

theorem Reception.setDevlist_self {s : Reception} {p : Nat} {entry : Nat × CMSClient}
    (h : s.client p = some entry) : s.setDevlist p entry entry.2.devlist = s := by
  have hheap : s.heap[p]? = some (some entry) := Option.join_eq_some_iff.mp h
  obtain ⟨hp, hentry⟩ := List.getElem?_eq_some_iff.mp hheap
  rw [Reception.setDevlist, ← hentry, List.set_getElem_self]

-- One turn of the loop, and its end.
theorem greets_loadNext {s after : Reception} {i p : Nat} {login : Greeting} {kid : String}
    (env : LoginEnv) (hlogin : s.logins[i]? = some login) (hphase : login.phase = .load kid p)
    (hfits : idsFit login.rows) (hnext : s.loadNext i login kid p = some after) :
    Greets i s after := by
  refine .single ⟨env, {}, ?_⟩
  simp only [greetStep, hlogin, Option.bind_some, Reception.advance, hphase, if_pos hfits, hnext,
    Option.map_some]

-- The turns of the loading loop do together what `loadCameras` does.
theorem greets_loadCameras {s : Reception} {i p : Nat} {login : Greeting} {kid : String}
    {entry : Nat × CMSClient} {rest : List TBDeviceEx} (env : LoginEnv)
    (hlogin : s.logins[i]? = some login) (hphase : login.phase = .load kid p)
    (hfits : idsFit login.rows) (hclient : s.client p = some entry)
    (hloaded : login.loaded ≤ login.rows.length) (hrest : login.rows.drop login.loaded = rest) :
    Greets i s ((s.setDevlist p entry (loadCameras entry.2.devlist rest)).goto i
      { login with loaded := login.rows.length, phase := .send 0 kid }) := by
  induction rest generalizing s login entry with
  | nil =>
      have hall : login.rows.length ≤ login.loaded := List.drop_eq_nil_iff.mp hrest
      obtain hcount : login.rows.length = login.loaded := Nat.le_antisymm hall hloaded
      refine greets_loadNext env hlogin hphase hfits ?_
      rw [Reception.loadNext, List.getElem?_eq_none hall, hcount]
      simp only [loadCameras, List.foldl_nil, Reception.setDevlist_self hclient]
  | cons r rest ih =>
      have hrow : login.rows[login.loaded]? = some r := by
        rw [← List.head?_drop, hrest]
        rfl
      have hlt : login.loaded < login.rows.length := (List.getElem?_eq_some_iff.mp hrow).1
      have hleft : login.rows.drop (login.loaded + 1) = rest := by
        rw [← List.tail_drop, hrest]
        rfl
      have hi : i < s.logins.length := (List.getElem?_eq_some_iff.mp hlogin).1
      have hp : p < s.heap.length :=
        (List.getElem?_eq_some_iff.mp (Option.join_eq_some_iff.mp hclient)).1
      let devlist := addCamera entry.2.devlist r.pid r.name r.allday r.s0 r.e0 r.s1 r.e1
      let mid := (s.setDevlist p entry devlist).goto i { login with loaded := login.loaded + 1 }
      have hturn : Greets i s mid := by
        refine greets_loadNext env hlogin hphase hfits ?_
        simp only [Reception.loadNext, hrow, hclient, Option.map_some]
        rfl
      have hclient' : mid.client p = some (entry.1, { entry.2 with devlist }) := by
        simp [mid, Reception.client, Reception.goto, Reception.setDevlist, hp]
      have hlogin' : mid.logins[i]? = some { login with loaded := login.loaded + 1 } :=
        List.getElem?_set_self hi
      have hmore := ih hlogin' hphase hfits hclient' hlt hleft
      simp only [mid, Reception.goto, Reception.setDevlist, List.set_set] at hmore
      exact hturn.trans hmore

theorem framesOn_cons (i : Nat) (event : GreetEvent) (out : GreetOut) (history : GreetHistory) :
    framesOn i ((event, out) :: history) = framesOn i history ++ out.frames.filterMap fun sent =>
      if sent.1 = i then some sent.2 else none := by
  simp [framesOn, List.filterMap_append]

theorem framesOn_cons_of_none (i : Nat) (event : GreetEvent) {out : GreetOut} (h : out.frames = [])
    (history : GreetHistory) : framesOn i ((event, out) :: history) = framesOn i history := by
  rw [framesOn_cons, h, List.filterMap_nil, List.append_nil]

namespace GreetInvariant

variable {history : GreetHistory} {s after : Reception} {event : GreetEvent} {out : GreetOut}

theorem init : GreetInvariant [] {} where
  first i frame h := by cases h
  looks := by simp
  counted := by simp
  answered i := iff_of_false (by rintro ⟨login, h, -⟩; cases h) (fun h => h rfl)
  requests := by simp

-- Frames that go to answered logins are not the first ones.
theorem head?_framesOn (h : GreetInvariant history s) (hframes : ∀ sent ∈ out.frames, s.Answered sent.1)
    (event : GreetEvent) (i : Nat) :
    (framesOn i ((event, out) :: history)).head? = (framesOn i history).head? := by
  rw [framesOn_cons]
  by_cases hnone : framesOn i history = []
  · have hmore : (out.frames.filterMap fun sent => if sent.1 = i then some sent.2 else none) = [] := by
      refine List.filterMap_eq_nil_iff.mpr fun sent hsent => if_neg ?_
      rintro rfl
      exact (h.answered _).mp (hframes sent hsent) hnone
    rw [hmore, List.append_nil]
  · obtain ⟨frame, rest, heq⟩ := List.exists_cons_of_ne_nil hnone
    rw [heq]
    rfl

theorem framesOn_ne_nil (h : GreetInvariant history s) (hframes : ∀ sent ∈ out.frames, s.Answered sent.1)
    (event : GreetEvent) (i : Nat) :
    framesOn i ((event, out) :: history) ≠ [] ↔ framesOn i history ≠ [] := by
  refine not_congr ?_
  rw [← List.head?_eq_none_iff, h.head?_framesOn hframes event i, List.head?_eq_none_iff]

-- A step of a request: the logins stay as they are, and the request's login is answered.
theorem of_request (h : GreetInvariant history s) (hlogins : after.logins = s.logins)
    (hrequests : ∀ call ∈ after.requests, s.Answered call.login)
    (hframes : ∀ sent ∈ out.frames, s.Answered sent.1)
    (hlooks : ∀ login ∈ out.looks, login.loaded = login.rows.length) :
    GreetInvariant ((event, out) :: history) after := by
  have hanswered : ∀ i, after.Answered i ↔ s.Answered i := by
    intro i
    rw [Reception.Answered, Reception.Answered, hlogins]
  refine ⟨⟨?_, ?_⟩, ?_, ?_, ?_⟩
  · intro i frame hframe
    rw [h.head?_framesOn hframes] at hframe
    rw [hlogins]
    exact h.first i frame hframe
  · exact List.forall_mem_cons.mpr ⟨hlooks, h.looks⟩
  · rw [hlogins]
    exact h.counted
  · intro i
    rw [hanswered, h.framesOn_ne_nil hframes, h.answered]
  · exact fun call hcall => (hanswered _).mpr (hrequests call hcall)

-- The frames after a step of a login that was silent: nothing, or its answer.
theorem framesOn_of_login {i : Nat} {next : Greeting} (hsilent : framesOn i history = [])
    (hout : (next.phase ≠ .done ∧ out = {}) ∨ (next.phase = .done ∧ ∃ ret resv,
      out = { frames := [(i, .respLogin next.seq ret next.rows.length resv (next.rows.map (·.pid)))] }))
    (event : GreetEvent) :
    (∀ j, j ≠ i → framesOn j ((event, out) :: history) = framesOn j history) ∧
      ((next.phase ≠ .done ∧ framesOn i ((event, out) :: history) = []) ∨
        (next.phase = .done ∧ ∃ ret resv, framesOn i ((event, out) :: history) =
          [.respLogin next.seq ret next.rows.length resv (next.rows.map (·.pid))])) := by
  rcases hout with ⟨hphase, rfl⟩ | ⟨hphase, ret, resv, rfl⟩
  · have hnone : ∀ j, framesOn j ((event, {}) :: history) = framesOn j history :=
      fun j => framesOn_cons_of_none j event rfl history
    exact ⟨fun j _ => hnone j, .inl ⟨hphase, (hnone i).trans hsilent⟩⟩
  · refine ⟨fun j hj => ?_, .inr ⟨hphase, ret, resv, ?_⟩⟩
    · rw [framesOn_cons]
      simp [Ne.symm hj]
    · rw [framesOn_cons, hsilent]
      simp

-- A step of a login: it changes itself, and it sends nothing but its answer.
theorem of_login (h : GreetInvariant history s) {i : Nat} {login next : Greeting}
    (hlogin : s.logins[i]? = some login) (hactive : login.phase ≠ .done)
    (hlogins : after.logins = s.logins.set i next) (hrequests : after.requests = s.requests)
    (hcounted : next.Counted)
    (hout : (next.phase ≠ .done ∧ out = {}) ∨ (next.phase = .done ∧ ∃ ret resv,
      out = { frames := [(i, .respLogin next.seq ret next.rows.length resv (next.rows.map (·.pid)))] })) :
    GreetInvariant ((event, out) :: history) after := by
  have hi : i < s.logins.length := (List.getElem?_eq_some_iff.mp hlogin).1
  have hself : after.logins[i]? = some next := by rw [hlogins, List.getElem?_set_self hi]
  have hother : ∀ j, j ≠ i → after.logins[j]? = s.logins[j]? := by
    intro j hj
    rw [hlogins, List.getElem?_set_ne (Ne.symm hj)]
  have hanswered : ∀ j, j ≠ i → (after.Answered j ↔ s.Answered j) := by
    intro j hj
    rw [Reception.Answered, Reception.Answered, hother j hj]
  have hnot : ¬ s.Answered i := by
    rintro ⟨found, hfound, hdone⟩
    rw [hlogin] at hfound
    exact hactive (Option.some.inj hfound ▸ hdone)
  have hsilent : framesOn i history = [] := by
    by_contra hne
    exact hnot ((h.answered i).mpr hne)
  obtain ⟨hframes, hown⟩ := framesOn_of_login hsilent hout event
  have hmem : ∀ found ∈ after.logins, found = next ∨ found ∈ s.logins := by
    intro found hfound
    rw [hlogins] at hfound
    exact (List.mem_or_eq_of_mem_set hfound).symm
  refine ⟨⟨?_, ?_⟩, ?_, ?_, ?_⟩
  · intro j frame hframe
    by_cases hj : j = i
    · subst hj
      rcases hown with ⟨-, hnone⟩ | ⟨-, ret, resv, hone⟩
      · rw [hnone] at hframe
        cases hframe
      · rw [hone] at hframe
        exact ⟨next, ret, resv, hself, (Option.some.inj hframe).symm⟩
    · rw [hframes j hj] at hframe
      rw [hother j hj]
      exact h.first j frame hframe
  · refine List.forall_mem_cons.mpr ⟨?_, h.looks⟩
    rcases hout with ⟨-, rfl⟩ | ⟨-, ret, resv, rfl⟩ <;> simp
  · intro found hfound
    rcases hmem found hfound with rfl | hfound
    · exact hcounted
    · exact h.counted found hfound
  · intro j
    by_cases hj : j = i
    · subst hj
      rcases hown with ⟨hphase, hnone⟩ | ⟨hphase, ret, resv, hone⟩
      · refine iff_of_false ?_ (fun hne => hne hnone)
        rintro ⟨found, hfound, hdone⟩
        rw [hself] at hfound
        exact hphase (Option.some.inj hfound ▸ hdone)
      · exact iff_of_true ⟨next, hself, hphase⟩ (by rw [hone]; exact List.cons_ne_nil _ _)
    · rw [hanswered j hj, hframes j hj, h.answered j]
  · intro call hcall
    rw [hrequests] at hcall
    have hbefore := h.requests call hcall
    have hne : call.login ≠ i := by
      rintro rfl
      exact hnot hbefore
    exact (hanswered _ hne).mpr hbefore

theorem of_new_login (h : GreetInvariant history s) (fd seq : Int) (req : ReqLogin) :
    GreetInvariant ((event, {}) :: history) { s with logins := s.logins ++ [{ fd, seq, req }] } := by
  have hframes : ∀ i, framesOn i ((event, {}) :: history) = framesOn i history :=
    fun i => framesOn_cons_of_none i event rfl history
  have hanswered : ∀ i, Reception.Answered { s with logins := s.logins ++ [{ fd, seq, req }] } i ↔
      s.Answered i := by
    intro i
    constructor
    · rintro ⟨login, hlogin, hdone⟩
      rcases Nat.lt_or_ge i s.logins.length with hi | hi
      · exact ⟨login, (List.getElem?_append_left hi).symm.trans hlogin, hdone⟩
      · rw [List.getElem?_append_right hi] at hlogin
        rw [List.mem_singleton.mp (List.mem_of_getElem? hlogin)] at hdone
        cases hdone
    · rintro ⟨login, hlogin, hdone⟩
      have hi := (List.getElem?_eq_some_iff.mp hlogin).1
      exact ⟨login, (List.getElem?_append_left hi).trans hlogin, hdone⟩
  refine ⟨⟨?_, ?_⟩, ?_, ?_, ?_⟩
  · intro i frame hframe
    rw [hframes] at hframe
    obtain ⟨login, ret, resv, hlogin, heq⟩ := h.first i frame hframe
    have hi := (List.getElem?_eq_some_iff.mp hlogin).1
    exact ⟨login, ret, resv, (List.getElem?_append_left hi).trans hlogin, heq⟩
  · exact List.forall_mem_cons.mpr ⟨by simp, h.looks⟩
  · intro login hlogin
    rcases List.mem_append.mp hlogin with hlogin | hlogin
    · exact h.counted login hlogin
    · rw [List.mem_singleton.mp hlogin]
      exact ⟨rfl, rfl⟩
  · intro i
    rw [hanswered, hframes, h.answered]
  · exact fun call hcall => (hanswered _).mpr (h.requests call hcall)

end GreetInvariant

theorem delClient_frame (s : Reception) (fd : Int) :
    (s.delClient fd).logins = s.logins ∧ (s.delClient fd).requests = s.requests := by
  unfold Reception.delClient
  split <;> exact ⟨rfl, rfl⟩

-- A login without rows has loaded all of them.
theorem all_loaded {login : Greeting} (h : login.loaded = 0 ∧ login.rows = []) :
    login.loaded = login.rows.length := by
  rw [h.1, h.2, List.length_nil]

section Step

variable {history : GreetHistory} {s after : Reception} {out : GreetOut}

theorem GreetInvariant.advance (h : GreetInvariant history s) {i : Nat} {login : Greeting}
    {env : LoginEnv} (hlogin : s.logins[i]? = some login)
    (hs : s.advance i login env = some (after, out)) :
    GreetInvariant ((.advance i env, out) :: history) after := by
  have hcounted := h.counted login (List.mem_of_getElem? hlogin)
  unfold Greeting.Counted at hcounted
  unfold Reception.advance at hs
  cases hphase : login.phase with
  | lookup =>
      rw [hphase] at hs hcounted
      cases hs
      by_cases hfound : (s.find fun p => p.cmsid == login.req.cmsid).isSome
      · exact h.of_login hlogin (by simp [hphase]) rfl rfl
          (by simp [Greeting.Counted, hfound, all_loaded hcounted]) (.inl ⟨by simp [hfound], rfl⟩)
      · exact h.of_login hlogin (by simp [hphase]) rfl rfl (by simp [Greeting.Counted, hfound, hcounted])
          (.inl ⟨by simp [hfound], rfl⟩)
  | check =>
      rw [hphase] at hs hcounted
      generalize DBHelper.checkLogin env.ada login.req.password = result at hs
      cases hs
      by_cases hret : result.1 = 0
      · exact h.of_login hlogin (by simp [hphase]) rfl rfl (by simp [Greeting.Counted, hret, hcounted])
          (.inl ⟨by simp [hret], rfl⟩)
      · exact h.of_login hlogin (by simp [hphase]) rfl rfl
          (by simp [Greeting.Counted, hret, all_loaded hcounted]) (.inl ⟨by simp [hret], rfl⟩)
  | cameras kid =>
      rw [hphase] at hs hcounted
      simp only at hs
      split at hs
      · cases hs
      split at hs
      · cases hs
        exact h.of_login hlogin (by simp [hphase]) rfl rfl (all_loaded hcounted) (.inl ⟨by simp, rfl⟩)
      · cases hs
        exact h.of_login hlogin (by simp [hphase]) rfl rfl hcounted.1 (.inl ⟨by simp, rfl⟩)
  | insert kid =>
      rw [hphase] at hs hcounted
      cases hs
      have hnone : login.loaded ≤ login.rows.length := by rw [hcounted]; exact Nat.zero_le _
      exact h.of_login hlogin (by simp [hphase]) rfl rfl hnone (.inl ⟨by simp, rfl⟩)
  | load kid p =>
      rw [hphase] at hs hcounted
      simp only at hs
      split at hs
      · obtain ⟨next, hnext, heq⟩ := Option.map_eq_some_iff.mp hs
        cases heq
        unfold Reception.loadNext at hnext
        split at hnext
        · next hend =>
            cases hnext
            have hall : login.rows.length ≤ login.loaded := List.getElem?_eq_none_iff.mp hend
            exact h.of_login hlogin (by simp [hphase]) rfl rfl (Nat.le_antisymm hcounted hall)
              (.inl ⟨by simp, rfl⟩)
        · next r hr =>
            obtain ⟨entry, -, rfl⟩ := Option.map_eq_some_iff.mp hnext
            have hmore : login.loaded < login.rows.length := (List.getElem?_eq_some_iff.mp hr).1
            refine h.of_login hlogin (by simp [hphase]) rfl rfl ?_ (.inl ⟨by simp [hphase], rfl⟩)
            rw [Greeting.Counted, hphase]
            exact hmore
      · cases hs
  | send ret kid =>
      rw [hphase] at hs hcounted
      simp only at hs
      split at hs
      · cases hs
      split at hs
      · cases hs
        exact h.of_login hlogin (by simp [hphase]) rfl rfl hcounted (.inr ⟨rfl, ret, _, rfl⟩)
      · cases hs
        obtain ⟨hlogins, hrequests⟩ := delClient_frame s login.fd
        have hset : ((s.delClient login.fd).goto i { login with phase := .lost }).logins =
            s.logins.set i { login with phase := .lost } := by rw [Reception.goto, hlogins]
        exact h.of_login hlogin (by simp [hphase]) hset hrequests hcounted (.inl ⟨by simp, rfl⟩)
  | done =>
      rw [hphase] at hs
      cases hs
  | lost =>
      rw [hphase] at hs
      cases hs

theorem GreetInvariant.serve (h : GreetInvariant history s) {r : Nat} {call : ClientCall} {sent : Bool}
    (hcall : s.requests[r]? = some call) (hs : s.serve r call sent = some (after, out)) :
    GreetInvariant ((.serve r sent, out) :: history) after := by
  have hanswered := h.requests call (List.mem_of_getElem? hcall)
  have hkept : ∀ phase, ∀ other ∈ s.requests.set r { call with phase }, s.Answered other.login := by
    intro phase other hother
    rcases List.mem_or_eq_of_mem_set hother with hmem | rfl
    · exact h.requests other hmem
    · exact hanswered
  have hdropped : ∀ fd phase, ∀ other ∈ ((s.delClient fd).answerTo r call phase).requests,
      s.Answered other.login := by
    intro fd phase other hother
    rw [Reception.answerTo, (delClient_frame s fd).2] at hother
    exact hkept phase other hother
  unfold Reception.serve at hs
  cases hphase : call.phase with
  | look =>
      rw [hphase] at hs
      obtain ⟨entry, -, heq⟩ := Option.map_eq_some_iff.mp hs
      split at heq
      · cases heq
        exact h.of_request (delClient_frame s entry.2.fd).1 (hdropped _ _) (by simp) (by simp)
      · cases heq
        refine h.of_request rfl (hkept _) (by simp) ?_
        intro login hlogin
        obtain ⟨found, hfound, hdone⟩ := hanswered
        rw [hfound] at hlogin
        obtain rfl := List.mem_singleton.mp hlogin
        have hcounted := h.counted login (List.mem_of_getElem? hfound)
        rwa [Greeting.Counted, hdone] at hcounted
  | send frame =>
      rw [hphase] at hs
      simp only at hs
      split at hs
      · cases hs
        refine h.of_request rfl (hkept _) ?_ (by simp)
        intro pair hpair
        rw [List.mem_singleton.mp hpair]
        exact hanswered
      · obtain ⟨entry, -, heq⟩ := Option.map_eq_some_iff.mp hs
        cases heq
        exact h.of_request (delClient_frame s entry.2.fd).1 (hdropped _ _) (by simp) (by simp)
  | done =>
      rw [hphase] at hs
      cases hs

theorem GreetInvariant.enter (h : GreetInvariant history s) {event : GreetEvent} {p : Nat}
    {request : ClientRequest} (hs : (s.enter p request).map (·, ({} : GreetOut)) = some (after, out))
    (hanswered : ∀ entry, s.client p = some entry → s.Answered entry.1) :
    GreetInvariant ((event, out) :: history) after := by
  obtain ⟨entered, hentered, heq⟩ := Option.map_eq_some_iff.mp hs
  cases heq
  obtain ⟨entry, hentry, rfl⟩ := Option.map_eq_some_iff.mp hentered
  refine h.of_request rfl ?_ (by simp) (by simp)
  intro call hcall
  rcases List.mem_append.mp hcall with hcall | hcall
  · exact h.requests call hcall
  · rw [List.mem_singleton.mp hcall]
    exact hanswered entry hentry

theorem GreetInvariant.step (h : GreetInvariant history s) {event : GreetEvent}
    (hguard : afterAnswer history s event) (hs : greetStep s event = some (after, out)) :
    GreetInvariant ((event, out) :: history) after := by
  cases event with
  | login fd seq buf =>
      simp only [greetStep] at hs
      split at hs
      · cases hs
      cases hs
      exact h.of_new_login fd seq (ReqLogin.decode buf)
  | advance i env =>
      obtain ⟨login, hlogin, hs⟩ := Option.bind_eq_some_iff.mp hs
      exact h.advance hlogin hs
  | request cmsid request =>
      simp only [greetStep] at hs
      split at hs
      · cases hs
        exact h.of_request rfl h.requests (by simp) (by simp)
      · next p hp => exact h.enter hs fun entry hentry => hguard p entry hp hentry
  | checkState p cur outside =>
      simp only [greetStep] at hs
      split at hs
      · exact h.enter hs hguard
      · cases hs
  | serve r sent =>
      obtain ⟨call, hcall, hs⟩ := Option.bind_eq_some_iff.mp hs
      exact h.serve hcall hs

end Step

-- Where requests take hold of a client only after its login was answered, the answer is the first
-- frame on the connection, and every request finds all cameras loaded.
theorem answer_comes_first {history : GreetHistory} {s : Reception}
    (run : Run greetStep afterAnswer {} history s) : AnswersFirst history s :=
  (run.invariant GreetInvariant .init fun _ _ _ _ _ h hguard hs => h.step hguard hs).toAnswersFirst

def twoCameras : LoginEnv := loginEnv "k" (.rows [allDayRow "d", allDayRow "e"])

def loginSteps (steps : Nat) : List GreetEvent :=
  .login 7 1 (ReqLogin.encode ⟨"A", "k"⟩) :: List.replicate steps (.advance 0 twoCameras)

def pushSteps : List GreetEvent :=
  [.request "A" (.notifyPush "d" fun _ => 0), .serve 0 true, .serve 0 true]

def loginAnswer : Outgoing := .respLogin 1 0 2 "k" ["d", "e"]

def afterAnswerCheck (_ : GreetHistory) (s : Reception) : GreetEvent → Bool
  | .request _ _ | .checkState _ _ _ => s.heap.all fun entry => entry.all fun e =>
      decide (s.logins[e.1]?.map (·.phase) = some .done)
  | _ => true

theorem afterAnswer_of_check (history : GreetHistory) (s : Reception) (event : GreetEvent)
    (h : afterAnswerCheck history s event = true) : afterAnswer history s event := by
  have hall : (∃ cmsid request, event = .request cmsid request) ∨
      (∃ p cur outside, event = .checkState p cur outside) →
      ∀ p entry, s.client p = some entry → s.Answered entry.1 := by
    intro hevent p entry hentry
    have hheap : some entry ∈ s.heap := List.mem_of_getElem? (Option.join_eq_some_iff.mp hentry)
    have hphase : s.logins[entry.1]?.map (·.phase) = some .done := by
      rcases hevent with ⟨cmsid, request, rfl⟩ | ⟨p, cur, outside, rfl⟩ <;>
        exact of_decide_eq_true (List.all_eq_true.mp h _ hheap)
    exact Option.map_eq_some_iff.mp hphase
  cases event with
  | request cmsid request => exact fun p entry _ => hall (.inl ⟨cmsid, request, rfl⟩) p entry
  | checkState p cur outside => exact hall (.inr ⟨p, cur, outside, rfl⟩) p
  | login fd seq buf => trivial
  | advance i env => trivial
  | serve r sent => trivial

theorem answer_comes_first_then_push :
    ∃ history s, Run greetStep afterAnswer {} history s ∧
      framesOn 0 history = [loginAnswer, pushRequest "d" fun _ => 0] ∧ AnswersFirst history s := by
  obtain ⟨history, s, run, htest⟩ := exists_run_of_ends greetStep afterAnswer {} (loginSteps 8 ++ pushSteps)
    (fun history _ => framesOn 0 history == [loginAnswer, pushRequest "d" fun _ => 0])
    (guarded_of_passes afterAnswerCheck afterAnswer_of_check (by decide +kernel)) (by decide +kernel)
  exact ⟨history, s, run, beq_iff_eq.mp htest, answer_comes_first run⟩

-- The request comes while the second camera is still to be loaded.
theorem push_comes_first :
    ∃ history s, Run greetStep free {} history s ∧
      framesOn 0 history = [pushRequest "d" fun _ => 0, loginAnswer] ∧ ¬ AnswersFirst history s := by
  obtain ⟨history, s, run, htest⟩ := exists_run_of_ends greetStep free {}
    (loginSteps 5 ++ pushSteps ++ List.replicate 3 (.advance 0 twoCameras))
    (fun history _ => framesOn 0 history == [pushRequest "d" fun _ => 0, loginAnswer])
    (guarded_free _ _ _) (by decide +kernel)
  have hframes := beq_iff_eq.mp htest
  refine ⟨history, s, run, hframes, fun h => ?_⟩
  obtain ⟨login, ret, resv, -, heq⟩ := h.first 0 (pushRequest "d" fun _ => 0) (by rw [hframes]; rfl)
  cases heq

end VideoAdapter.Adapter

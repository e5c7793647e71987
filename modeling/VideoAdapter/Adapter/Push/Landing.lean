import VideoAdapter.Adapter.Push.Crossing

namespace VideoAdapter.Adapter

open Lib PushClient

-- The record that a call is about to write.
def PushPc.storing : PushPc → Option Nat
  | .store p _ _ => some p
  | _ => none

-- A call writes the record that the table has for its device, and one that has just succeeded has
-- its device in the table.
structure LandsLive (history : PushHistory) (m : PushClient) : Prop where
  writes : ∀ (i : Nat) (call : PushCall) (p : Nat), m.calls[i]? = some call → call.pc.storing = some p →
    m.devlist[call.devid]? = some p
  success : ∀ (i : Nat) env out earlier (call : PushCall) res stored,
    history = (.advance i env, out) :: earlier → m.calls[i]? = some call → call.pc = .done res stored →
    res.ret = 0 → m.devlist[call.devid]? ≠ none

def PushEvent.isStepOf (i : Nat) : PushEvent → Bool
  | .advance j _ => j = i
  | _ => false

def stepped (i : Nat) (history : PushHistory) : Bool := history.any fun entry => entry.1.isStepOf i

-- The device was added again or deleted behind the look-up of the call, which is its first step.
def renewedSince (d : String) (i : Nat) : PushHistory → Bool
  | [] => false
  | (event, _) :: earlier => event.renews d && stepped i earlier || renewedSince d i earlier

-- The answer with result 100 that a step of the call takes.
def PushClient.receives (m : PushClient) (i : Nat) (env : PushStepEnv) : Option RespPush :=
  match m.calls[i]? with
  | some ⟨_, .poll _ seq _ cur⟩ =>
      if env.tick - cur > 12 * 1000 then none
      else (m.msglist.find? (isAnswer seq)).bind fun pNode =>
        let resp := RespPush.decode pNode.buf
        if resp.result = 100 then some resp else none
  | _ => none

-- Between its look-up and its writes no call has its device added again or deleted: not before it
-- takes a good answer, and not before it has written.
def renewsApart (history : PushHistory) (m : PushClient) (event : PushEvent) : Prop :=
  (∀ i env call, event = .advance i env → m.calls[i]? = some call → (m.receives i env).isSome = true →
    renewedSince call.devid i history = false) ∧
  ∀ d, event.renews d = true → ∀ call ∈ m.calls, call.devid = d → call.pc.storing = none

-- What the history says of the calls: which have looked up their device, and whose record is still
-- the one in the table.
structure Followed (history : PushHistory) (m : PushClient) : Prop extends Linked m where
  stepped_iff : ∀ i, stepped i history = true ↔ ∃ call, m.calls[i]? = some call ∧ call.pc ≠ .lookup
  held : ∀ i call p, m.calls[i]? = some call → call.pc.pItem = some p →
    (m.devlist[call.devid]? = some p ↔ renewedSince call.devid i history = false)

variable {m after : PushClient} {i : Nat} {call : PushCall} {d : String} {event : PushEvent}
  {env : PushStepEnv} {out : List PushOutput} {history : PushHistory}

theorem PushPc.pItem_of_storing {pc : PushPc} {p : Nat} (h : pc.storing = some p) : pc.pItem = some p := by
  cases pc with
  | store => exact h
  | _ => cases h

theorem PushPc.ne_lookup_of_pItem {pc : PushPc} {p : Nat} (h : pc.pItem = some p) : pc ≠ .lookup := by
  rintro rfl
  cases h

theorem renewedSince_of_not_stepped (h : stepped i history = false) : renewedSince d i history = false := by
  induction history with
  | nil => rfl
  | cons entry earlier ih =>
      rw [stepped, List.any_cons, Bool.or_eq_false_iff] at h
      rw [renewedSince, ih h.2, show stepped i earlier = false from h.2, Bool.and_false, Bool.or_false]

theorem renewedSince_advance (d : String) (j i : Nat) (env : PushStepEnv) (out : List PushOutput)
    (history : PushHistory) :
    renewedSince d j ((.advance i env, out) :: history) = renewedSince d j history := by
  rw [renewedSince, show (PushEvent.advance i env).renews d = false from rfl, Bool.false_and, Bool.false_or]

-- A step of a call: where the call goes, and that nothing else happens to the calls and the table.
structure CallStep (m : PushClient) (i : Nat) (call : PushCall) (after : PushClient) (pc : PushPc) :
    Prop where
  calls : ∀ j, after.calls[j]? = if j = i then some { call with pc } else m.calls[j]?
  devlist : after.devlist = m.devlist
  ne_lookup : pc ≠ .lookup
  pItem : ∀ p, pc.pItem = some p →
    call.pc.pItem = some p ∨ call.pc = .lookup ∧ m.devlist[call.devid]? = some p
  success : ∀ res stored, pc = .done res stored → res.ret = 0 →
    m.devlist[call.devid]? ≠ none ∨ ∃ p, call.pc.storing = some p

theorem callStep_goto {mid : PushClient} {pc : PushPc} (hc : m.calls[i]? = some call)
    (hcalls : mid.calls = m.calls) (hdevlist : mid.devlist = m.devlist) (hne : pc ≠ .lookup)
    (hp : ∀ p, pc.pItem = some p →
      call.pc.pItem = some p ∨ call.pc = .lookup ∧ m.devlist[call.devid]? = some p)
    (hsuccess : ∀ res stored, pc = .done res stored → res.ret = 0 →
      m.devlist[call.devid]? ≠ none ∨ ∃ p, call.pc.storing = some p) :
    CallStep m i call (mid.goto i pc) pc where
  calls := fun j => by rw [calls_goto mid i j pc (hcalls ▸ hc), hcalls]
  devlist := hdevlist
  ne_lookup := hne
  pItem := hp
  success := hsuccess

theorem callStep_of_move (hc : m.calls[i]? = some call)
    (move : PushMove m i call.devid env call.pc after out) : ∃ pc, CallStep m i call after pc := by
  have hfailed : ∀ (res : NotifyResult) (pc : PushPc), pc = .done res none → res.ret ≠ 0 →
      ∀ res' stored, pc = .done res' stored → res'.ret = 0 →
        m.devlist[call.devid]? ≠ none ∨ ∃ p, call.pc.storing = some p := by
    rintro res pc rfl hret res' stored hdone hret'
    cases hdone
    exact absurd hret' hret
  obtain ⟨devid, pc⟩ := call
  cases move with
  | unknown | lost | timeout | refused =>
      exact ⟨_, callStep_goto hc rfl rfl (by simp) (fun _ h => by cases h)
        (hfailed _ _ rfl (show (-1 : Int) ≠ 0 by decide))⟩
  | pushing p pItem hd hn h2 =>
      exact ⟨_, callStep_goto hc rfl rfl (by simp) (fun _ h => by cases h) fun _ _ _ _ => .inl (by simp [hd])⟩
  | found p pItem hd hn h2 =>
      refine ⟨_, callStep_goto hc rfl rfl (by simp) (fun q h => ?_) fun _ _ h => by cases h⟩
      cases h
      exact .inr ⟨rfl, hd⟩
  | sent | refreshed | taken =>
      exact ⟨_, callStep_goto hc rfl rfl (by simp) (fun _ h => .inl h) fun _ _ h => by cases h⟩
  | waiting p seq push_key cur =>
      refine ⟨.poll p seq push_key cur, fun j => ?_, rfl, by simp, fun _ h => .inl h, fun _ _ h => by cases h⟩
      split
      · rename_i hj
        rw [hj, hc]
      · rfl
  | stored p push_key resp pItem hn =>
      exact ⟨_, callStep_goto hc rfl rfl (by simp) (fun _ h => by cases h) fun _ _ _ _ => .inr ⟨p, rfl⟩⟩

theorem CallStep.pc_eq {pc pc' : PushPc} (hstep : CallStep m i call after pc)
    (hat : after.calls[i]? = some { call with pc := pc' }) : pc = pc' := by
  rw [hstep.calls i, if_pos rfl] at hat
  cases hat
  rfl

theorem calls_goto_self {mid : PushClient} {pc : PushPc} (hc : mid.calls[i]? = some call) :
    (mid.goto i pc).calls[i]? = some { call with pc } := by
  rw [calls_goto mid i i pc hc, if_pos rfl]

-- One round of the polling loop takes a good answer, or leaves the call without one.
theorem receives_isSome_of_poll {p : Nat} {seq : Int} {push_key : String} {cur : UInt64}
    (hc : m.calls[i]? = some ⟨d, .poll p seq push_key cur⟩)
    (hpoll : m.poll i p seq push_key cur env.tick = some after) {pc : PushPc}
    (hstep : CallStep m i ⟨d, .poll p seq push_key cur⟩ after pc) :
    (m.receives i env).isSome = true ↔ ∃ p, pc.storing = some p := by
  unfold PushClient.receives
  rw [hc]
  dsimp only
  unfold PushClient.poll at hpoll
  by_cases hlate : env.tick - cur > 12 * 1000
  · rw [if_pos hlate] at hpoll ⊢
    cases hpoll
    rw [hstep.pc_eq (calls_goto_self hc)]
    simp [PushPc.storing]
  · rw [if_neg hlate] at hpoll ⊢
    cases hfind : m.msglist.find? (isAnswer seq) with
    | none =>
        simp only [hfind] at hpoll
        cases hpoll
        rw [hstep.pc_eq hc]
        simp [PushPc.storing]
    | some pNode =>
        simp only [hfind] at hpoll
        rw [Option.bind_some]
        split at hpoll
        · cases hpoll
        · split at hpoll
          · rename_i h100
            cases hpoll
            rw [if_pos h100, hstep.pc_eq (@calls_goto_self i _ { m with msglist := _ } _ hc)]
            simp [PushPc.storing]
          · rename_i h100
            cases hpoll
            rw [if_neg h100, hstep.pc_eq (@calls_goto_self i _ { m with msglist := _ } _ hc)]
            simp [PushPc.storing]

-- A step of the call takes a good answer exactly when the call then stands before its writes.
theorem receives_isSome_iff (hc : m.calls[i]? = some call)
    (hs : pushStep m (.advance i env) = some (after, out)) {pc : PushPc} (hstep : CallStep m i call after pc) :
    (m.receives i env).isSome = true ↔ ∃ p, pc.storing = some p := by
  obtain ⟨devid, start⟩ := call
  cases start with
  | poll p seq push_key cur =>
      simp only [pushStep, PushClient.advance, hc] at hs
      obtain ⟨next, hpoll, he⟩ := Option.map_eq_some_iff.mp hs
      cases he
      exact receives_isSome_of_poll hc hpoll hstep
  | _ =>
      obtain ⟨call, hcall, move⟩ := advance_move hs
      obtain rfl := Option.some.inj (hc.symm.trans hcall)
      cases move <;>
        rw [hstep.pc_eq (calls_goto_self hc), PushClient.receives, hc] <;>
        simp [PushPc.storing]

-- A step that is none of a call: an old pointer stays in the table unless the device is renewed.
structure OtherStep (m : PushClient) (event : PushEvent) (after : PushClient) : Prop where
  quiet : ∀ j, event.isStepOf j = false
  kept : ∀ (j : Nat) (call : PushCall), m.calls[j]? = some call → after.calls[j]? = some call
  calls : ∀ (j : Nat) (call : PushCall), after.calls[j]? = some call →
    m.calls[j]? = some call ∨ call.pc = .lookup
  listed : ∀ (d : String) (p : Nat), p < m.nodes.length →
    (after.devlist[d]? = some p ↔ event.renews d = false ∧ m.devlist[d]? = some p)

theorem OtherStep.of_same (hquiet : ∀ j, event.isStepOf j = false) (hcalls : after.calls = m.calls)
    (hdevlist : after.devlist = m.devlist) (hrenew : ∀ d, event.renews d = false) :
    OtherStep m event after where
  quiet := hquiet
  kept := fun j call hj => by rw [hcalls, hj]
  calls := fun j call hj => .inl (by rw [← hcalls, hj])
  listed := fun d p _ => by rw [hdevlist, hrenew d, and_iff_right rfl]

theorem otherStep_table (hquiet : ∀ j, event.isStepOf j = false) (move : TableMove m event after) :
    OtherStep m event after := by
  cases move with
  | rewritten h hrenew => exact .of_same hquiet h.calls h.devlist hrenew
  | absent pid hp =>
      refine ⟨hquiet, fun _ _ hj => hj, fun _ _ hj => .inl hj, fun d p _ => ?_⟩
      by_cases hd : pid = d
      · subst hd
        simp [PushEvent.renews, hp]
      · simp [PushEvent.renews, hd]
  | added pid name allday s0 e0 s1 e1 =>
      refine ⟨hquiet, fun _ _ hj => hj, fun _ _ hj => .inl hj, fun d p hp => ?_⟩
      rw [devlist_addCamera]
      by_cases hd : pid = d
      · simp [PushEvent.renews, hd, (Nat.ne_of_lt hp).symm]
      · simp [PushEvent.renews, hd]
  | deleted pid q hq =>
      refine ⟨hquiet, fun _ _ hj => hj, fun _ _ hj => .inl hj, fun d p _ => ?_⟩
      by_cases hd : pid = d
      · simp [PushEvent.renews, hd]
      · simp [PushEvent.renews, hd, Std.ExtTreeMap.getElem?_erase]

theorem otherStep_of_step (hs : pushStep m event = some (after, out))
    (hother : ∀ i env, event ≠ .advance i env) : OtherStep m event after := by
  have hquiet : ∀ j, event.isStepOf j = false := by
    intro j
    cases event with
    | advance i env => exact absurd rfl (hother i env)
    | _ => rfl
  cases pushStep_cases hs with
  | call devid =>
      refine ⟨hquiet, fun j call hj => ?_, fun j call hj => calls_call m j hj, fun d p _ => ?_⟩
      · exact (List.getElem?_append_left (List.getElem?_eq_some_iff.mp hj).1).trans hj
      · simp [PushEvent.renews]
  | advance i env => exact absurd rfl (hother i env)
  | answer => exact .of_same hquiet (by simp) (by simp) fun _ => rfl
  | mail => exact .of_same hquiet (by simp) (by simp) fun _ => rfl
  | table _ _ move => exact otherStep_table hquiet move

theorem Followed.of_other (h : Followed history m) (hs : pushStep m event = some (after, out))
    (hother : OtherStep m event after) : Followed ((event, out) :: history) after := by
  refine ⟨h.toLinked.step hs, fun i => ?_, fun i call p hc hp => ?_⟩
  · rw [stepped, List.any_cons, hother.quiet, Bool.false_or]
    refine (h.stepped_iff i).trans ⟨?_, ?_⟩
    · rintro ⟨call, hc, hne⟩
      exact ⟨call, hother.kept i call hc, hne⟩
    · rintro ⟨call, hc, hne⟩
      exact ⟨call, (hother.calls i call hc).resolve_right hne, hne⟩
  · have hne := PushPc.ne_lookup_of_pItem hp
    have hold := (hother.calls i call hc).resolve_right hne
    have hstepped := (h.stepped_iff i).mpr ⟨call, hold, hne⟩
    rw [hother.listed _ _ (h.length i call p hold hp), h.held i call p hold hp, renewedSince, hstepped,
      Bool.and_true, Bool.or_eq_false_iff]

theorem Followed.of_call (h : Followed history m) (hc : m.calls[i]? = some call)
    (hs : pushStep m (.advance i env) = some (after, out)) {pc : PushPc}
    (hstep : CallStep m i call after pc) : Followed ((.advance i env, out) :: history) after := by
  refine ⟨h.toLinked.step hs, fun j => ?_, fun j callj p hj hp => ?_⟩
  · rw [stepped, List.any_cons, hstep.calls]
    by_cases hji : j = i
    · rw [if_pos hji, PushEvent.isStepOf, decide_eq_true hji.symm, Bool.true_or]
      exact iff_of_true rfl ⟨_, rfl, hstep.ne_lookup⟩
    · rw [if_neg hji, PushEvent.isStepOf, decide_eq_false (Ne.symm hji), Bool.false_or]
      exact h.stepped_iff j
  · rw [hstep.devlist, renewedSince_advance]
    rw [hstep.calls] at hj
    split at hj
    · rename_i hji
      cases hj
      rw [hji]
      rcases hstep.pItem p hp with hold | ⟨hlookup, hlisted⟩
      · exact h.held i call p hc hold
      · -- the pointer is taken from the table now, and the call has done nothing before
        refine iff_of_true hlisted (renewedSince_of_not_stepped ?_)
        rw [Bool.eq_false_iff]
        intro hstepped
        obtain ⟨call', hc', hne⟩ := (h.stepped_iff i).mp hstepped
        obtain rfl := Option.some.inj (hc.symm.trans hc')
        exact hne hlookup
    · exact h.held j callj p hj hp

theorem Followed.step (h : Followed history m) (hs : pushStep m event = some (after, out)) :
    Followed ((event, out) :: history) after := by
  by_cases hadvance : ∃ i env, event = .advance i env
  · obtain ⟨i, env, rfl⟩ := hadvance
    obtain ⟨call, hc, move⟩ := advance_move hs
    obtain ⟨pc, hstep⟩ := callStep_of_move hc move
    exact h.of_call hc hs hstep
  · exact h.of_other hs (otherStep_of_step hs fun i env he => hadvance ⟨i, env, he⟩)

theorem calls_loggedIn (rows : List TBDeviceEx) : (loggedIn rows).calls = [] :=
  loggedIn_induction (fun m => m.calls = []) rfl (fun _ _ _ _ _ _ _ _ h => h) rows

theorem followed_loggedIn (rows : List TBDeviceEx) : Followed [] (loggedIn rows) :=
  ⟨linked_loggedIn rows, fun i => by simp [stepped, calls_loggedIn], by simp [calls_loggedIn]⟩

-- A renewal keeps the writes on live records exactly when no call for the device is about to write.
theorem landsLive_iff_of_other (h : Followed history m) (hlands : LandsLive history m)
    (hother : ∀ i env, event ≠ .advance i env) (hstep : OtherStep m event after) :
    renewsApart history m event ↔ LandsLive ((event, out) :: history) after := by
  constructor
  · rintro ⟨-, hrenew⟩
    refine ⟨fun i call p hc hp => ?_, ?_⟩
    · have hitem := PushPc.pItem_of_storing hp
      have hold := (hstep.calls i call hc).resolve_right (PushPc.ne_lookup_of_pItem hitem)
      have hsame : event.renews call.devid = false := by
        rw [Bool.eq_false_iff]
        intro hyes
        rw [hrenew call.devid hyes call (List.mem_of_getElem? hold) rfl] at hp
        cases hp
      exact (hstep.listed _ _ (h.length i call p hold hitem)).mpr ⟨hsame, hlands.writes i call p hold hp⟩
    · intro i env out' earlier call res stored heq
      cases heq
      exact absurd rfl (hother i env)
  · intro hafter
    refine ⟨fun i env call he => absurd he (hother i env), fun d hrenew call hmem hd => ?_⟩
    cases hp : call.pc.storing with
    | none => rfl
    | some p =>
        obtain ⟨i, hi⟩ := List.mem_iff_getElem?.mp hmem
        have hlisted := hafter.writes i call p (hstep.kept i call hi) hp
        have hlt := h.length i call p hi (PushPc.pItem_of_storing hp)
        rw [hstep.listed _ _ hlt, hd, hrenew] at hlisted
        cases hlisted.1

-- A step of a call keeps them exactly when it takes no good answer behind a renewal.
theorem landsLive_iff_of_call (h : Followed history m) (hlands : LandsLive history m)
    (hc : m.calls[i]? = some call) (hs : pushStep m (.advance i env) = some (after, out)) {pc : PushPc}
    (hstep : CallStep m i call after pc) :
    renewsApart history m (.advance i env) ↔ LandsLive ((.advance i env, out) :: history) after := by
  have hfollowed := h.of_call hc hs hstep
  have hat : after.calls[i]? = some { call with pc } := by rw [hstep.calls, if_pos rfl]
  have hreceives := receives_isSome_iff hc hs hstep
  constructor
  · rintro ⟨htake, -⟩
    refine ⟨fun j callj p hj hp => ?_, ?_⟩
    · by_cases hji : j = i
      · subst hji
        obtain rfl := Option.some.inj (hat.symm.trans hj)
        refine (hfollowed.held j _ p hat (PushPc.pItem_of_storing hp)).mpr ?_
        rw [renewedSince_advance]
        exact htake j env call rfl hc (hreceives.mpr ⟨p, hp⟩)
      · rw [hstep.calls, if_neg hji] at hj
        rw [hstep.devlist]
        exact hlands.writes j callj p hj hp
    · intro j env' out' earlier callj res stored heq hj hdone hret
      cases heq
      obtain rfl := Option.some.inj (hat.symm.trans hj)
      rw [hstep.devlist]
      rcases hstep.success res stored hdone hret with hlisted | ⟨p, hp⟩
      · exact hlisted
      · rw [hlands.writes i call p hc hp]
        exact Option.some_ne_none p
  · intro hafter
    refine ⟨?_, fun d hrenew => by cases hrenew⟩
    intro j env' call' he hcall htake
    cases he
    obtain rfl := Option.some.inj (hc.symm.trans hcall)
    obtain ⟨p, hp⟩ := hreceives.mp htake
    have hlisted := hafter.writes i _ p hat hp
    rw [← renewedSince_advance call.devid i i env out history]
    exact (hfollowed.held i _ p hat (PushPc.pItem_of_storing hp)).mp hlisted

-- The guard as a computation.
def renewalsApart (history : PushHistory) (m : PushClient) (event : PushEvent) : Bool :=
  (match event with
  | .advance i env =>
      (m.receives i env).isNone || m.calls[i]?.all fun call => !renewedSince call.devid i history
  | _ => true) &&
    m.calls.all fun call => !event.renews call.devid || call.pc.storing.isNone

theorem renewsApart_of_renewalsApart (history : PushHistory) (m : PushClient) (event : PushEvent)
    (h : renewalsApart history m event = true) : renewsApart history m event := by
  obtain ⟨htake, hrenew⟩ := Bool.and_eq_true_iff.mp h
  refine ⟨?_, fun d hd call hmem hsame => ?_⟩
  · rintro i env call rfl hc hreceives
    rw [Option.isSome_iff_ne_none] at hreceives
    simpa [hreceives, hc] using htake
  · have hcall := List.all_eq_true.mp hrenew call hmem
    rw [hsame, hd] at hcall
    simpa using hcall

-- The runs whose pushes all land on live records are those in which no device is added again or
-- deleted between the look-up and the writes of a push for it.
theorem pushes_land_live_iff {rows : List TBDeviceEx} {history : PushHistory} {m : PushClient}
    (run : Run pushStep free (loggedIn rows) history m) :
    Run pushStep renewsApart (loggedIn rows) history m ↔
      ∀ earlier state, earlier <:+ history → Run pushStep free (loggedIn rows) earlier state →
        LandsLive earlier state := by
  refine run.guarded_iff_under Followed LandsLive (followed_loggedIn rows)
    (fun _ _ _ _ _ h hs => h.step hs) ⟨by simp [calls_loggedIn], fun _ _ _ _ _ _ _ h => by cases h⟩ ?_
  intro history before event after out h hlands hs
  by_cases hadvance : ∃ i env, event = .advance i env
  · obtain ⟨i, env, rfl⟩ := hadvance
    obtain ⟨call, hc, move⟩ := advance_move hs
    obtain ⟨pc, hstep⟩ := callStep_of_move hc move
    exact landsLive_iff_of_call h hlands hc hs hstep
  · have hother : ∀ i env, event ≠ .advance i env := fun i env he => hadvance ⟨i, env, he⟩
    exact landsLive_iff_of_other h hlands hother (otherStep_of_step hs hother)

-- The windows of the camera are changed while its push waits; the push lands on its record.
theorem pushes_land_live_modified :
    ∃ history m, Run pushStep renewsApart (loggedIn [camera "d"]) history m ∧
      m.device "d" = some ⟨"d", "", "T", 2, 0, "08:00:00", "12:00:00", "", "", "3333333333"⟩ ∧
      ∀ earlier state, earlier <:+ history →
        Run pushStep free (loggedIn [camera "d"]) earlier state → LandsLive earlier state := by
  obtain ⟨history, m, run, hdevice⟩ :=
    exists_run_of_ends pushStep renewsApart (loggedIn [camera "d"])
      [.call "d", go 0 3 false, go 0 3 true, go 0 3 false, .modifyCamera "d" 0 "08:00:00" "12:00:00" "" "",
        reply 0 "T", go 0 3 false, go 0 3 false]
      (fun _ m => m.device "d" = some ⟨"d", "", "T", 2, 0, "08:00:00", "12:00:00", "", "", "3333333333"⟩)
      (guarded_of_passes _ renewsApart_of_renewalsApart (by decide +kernel)) (by decide +kernel)
  exact ⟨history, m, run, of_decide_eq_true hdevice, (pushes_land_live_iff run.unguarded).mp run⟩

-- The camera is deleted and added again while its push waits: the call holds the deleted record when
-- it has the answer.
theorem push_lands_on_deleted :
    ¬ ∀ rows history m, Run pushStep free (loggedIn rows) history m → LandsLive history m := by
  intro hall
  obtain ⟨history, m, run, htest⟩ :=
    exists_run_of_ends pushStep free (loggedIn [camera "d"])
      [.call "d", go 0 3 false, go 0 3 true, go 0 3 false, .delCamera "d",
        .addCamera "d" "" 1 "" "" "" "", reply 0 "T", go 0 3 false]
      (fun _ m => (m.calls[0]?.map fun call => (call.devid, call.pc.storing)) = some ("d", some 0) ∧
        m.devlist["d"]? = some 1)
      (guarded_free _ _ _) (by decide +kernel)
  obtain ⟨hcall, hlisted⟩ := of_decide_eq_true htest
  obtain ⟨call, hc, hpair⟩ := Option.map_eq_some_iff.mp hcall
  obtain ⟨hdevid, hstoring⟩ := Prod.mk.inj hpair
  have hwrites := (hall _ history m run).writes 0 call 0 hc hstoring
  rw [hdevid, hlisted] at hwrites
  cases hwrites

end VideoAdapter.Adapter

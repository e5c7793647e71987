import VideoAdapter.Wss.Calls.Sound

namespace VideoAdapter.Wss

open Adapter Lib
open Service (RequestEnv SweepEnv)

namespace Mngr

def found (m : Mngr) (i : Nat) : Option (String × Nat) := m.calls[i]?.bind Call.found

-- Every join that is about to add its viewer, and then to answer 101 or 102, has the room
-- that is stored for its camera.
def Effective (m : Mngr) : Prop :=
  ∀ i key p, m.found i = some (key, p) → m.rooms[key]? = some p ∧ ∃ room, m.room p = some room

-- No call in progress, and every stored pointer leads to a room of its own.
structure Settled (m : Mngr) : Prop where
  calls : m.calls = []
  live : ∀ (k : String) (p : Nat), m.rooms[k]? = some p → ∃ room, m.room p = some room
  inj : ∀ (k k' : String) (p : Nat), m.rooms[k]? = some p → m.rooms[k']? = some p → k = k'

end Mngr

-- A room is taken off `rooms_` only while no join is between its look-up of this room and
-- its `LiveRoom::join`.
def spares (_ : CallHistory) (m : Mngr) (event : CallEvent) : Prop :=
  ∀ key, m.takes event = some key → ∀ i p, m.found i ≠ some (key, p)

variable {m base after : Mngr} {i j : Nat} {call call' : Call} {key : String} {p : Nat}
  {room : LiveRoom} {event : CallEvent} {shown : Shown} {out : List Output}

theorem Mngr.Settled.sound (h : m.Settled) : m.Sound := by
  refine ⟨h.live, h.inj, fun i p hi => ?_, fun i j p hi => ?_⟩ <;>
    simp [Mngr.reserved, h.calls] at hi

-- A change that takes no room off `rooms_`.
theorem Mngr.Effective.keep (h : m.Effective) (hrooms : after.rooms = m.rooms)
    (hlive : m.Survives after)
    (hfound : ∀ j key q, after.found j = some (key, q) →
      m.found j = some (key, q) ∨ ∃ room, m.rooms[key]? = some q ∧ m.room q = some room) :
    after.Effective := by
  intro j key q hj
  rw [hrooms]
  rcases hfound j key q hj with hj | ⟨room, hq, hroom⟩
  · obtain ⟨hq, room, hroom⟩ := h j key q hj
    exact ⟨hq, hlive q room hroom⟩
  · exact ⟨hq, hlive q room hroom⟩

-- A change that takes the room of one key off `rooms_` spoils the joins that have looked up
-- this key, and no others.
theorem Mngr.Effective.take_iff (h : m.Effective) (hsound : m.Sound)
    (hkey : ∀ q, m.rooms[key]? = some q → after.rooms[key]? ≠ some q)
    (hother : ∀ k : String, k ≠ key → after.rooms[k]? = m.rooms[k]?)
    (hroom : ∀ q, m.rooms[key]? ≠ some q → after.room q = m.room q)
    (hfound : ∀ j, after.found j = m.found j) :
    (∀ i p, m.found i ≠ some (key, p)) ↔ after.Effective := by
  constructor
  · intro hno j k q hj
    rw [hfound] at hj
    have hk : k ≠ key := fun he => hno j q (he ▸ hj)
    obtain ⟨hq, hlive⟩ := h j k q hj
    rw [hother k hk, hroom q fun he => hk (hsound.inj k key q hq he)]
    exact ⟨hq, hlive⟩
  · intro hafter i p hi
    refine hkey p (h i key p hi).1 ?_
    exact (hafter i key p ((hfound i).trans hi)).1

theorem spares_iff (htakes : m.takes event = some key) (history : CallHistory) :
    spares history m event ↔ ∀ i p, m.found i ≠ some (key, p) := by
  constructor
  · exact fun hspares => hspares key htakes
  · intro hno other hother
    rw [htakes] at hother
    cases hother
    exact hno

theorem spares_of_not_takes (htakes : m.takes event = none) (history : CallHistory) :
    spares history m event :=
  fun key hkey => by simp [htakes] at hkey

theorem found_goto (hc : m.calls[i]? = some call) (hbase : base.calls = m.calls) (j : Nat) :
    (base.goto i call').found j = if j = i then call'.found else m.found j :=
  bind_goto Call.found hc hbase call' j

theorem found_goto_none (hc : m.calls[i]? = some call) (hbase : base.calls = m.calls)
    (hold : call.found = none) (hnew : call'.found = none) (j : Nat) :
    (base.goto i call').found j = m.found j := by
  rw [found_goto hc hbase, hnew]
  split
  · rename_i hj
    subst hj
    simp [Mngr.found, hc, hold]
  · rfl

theorem step_effective_iff (hsound : m.Sound) (h : m.Effective)
    (hs : callStep m event = some (after, shown)) (history : CallHistory) :
    spares history m event ↔ after.Effective := by
  cases callStep_move hs with
  | began event call hb =>
      have htakes : m.takes event = none := by cases event <;> cases hb <;> rfl
      have hnew : call.found = none := by cases event <;> cases hb <;> rfl
      refine iff_of_true (spares_of_not_takes htakes history) ?_
      exact h.keep rfl (.refl m) fun j key q hj => .inl (bind_append hnew hj)
  | advanced i env call call' base _ hc hmove _ =>
      have hcalls := hmove.calls
      have htake : m.takes (.advance i env) = call.takes := by simp [Mngr.takes, hc]
      cases hmove.effect with
      | mild hrooms hlive htakes hnew hfound =>
          refine iff_of_true (spares_of_not_takes (htake.trans htakes) history) ?_
          refine h.keep hrooms hlive fun j key q hj => ?_
          rw [found_goto hc hcalls] at hj
          split at hj
          · have hq := hfound key q hj
            obtain ⟨room, hroom⟩ := hsound.live key q hq
            exact .inr ⟨room, hq, hroom⟩
          · exact .inl hj
      | delete key htakes hnew hold hfound =>
          rw [spares_iff (htake.trans htakes)]
          refine h.take_iff hsound ?_ ?_ ?_ (found_goto_none hc hcalls hold hfound)
          · exact fun q _ => by simp [Mngr.goto, rooms_delete]
          · exact fun k hk => by simp [Mngr.goto, rooms_delete, hk]
          · exact fun q hq => room_delete hq
      | create room htakes hnew hfound =>
          refine iff_of_true (spares_of_not_takes (htake.trans htakes) history) ?_
          refine h.keep rfl ?_ fun j key q hj => ?_
          · intro q old hq
            have hroom := room_append m room q
            split at hroom
            · exact ⟨_, hroom⟩
            · exact ⟨old, hroom.trans hq⟩
          · rw [found_goto hc hcalls, hfound] at hj
            split at hj
            · cases hj
            · exact .inl hj
      | store key p htakes hold hnew =>
          rw [spares_iff (htake.trans htakes)]
          have hfree := (hsound.kept i p (by simp [Mngr.reserved, hc, hold.1])).2
          refine h.take_iff hsound ?_ ?_ (fun _ _ => rfl)
            (found_goto_none hc hcalls hold.2 hnew.2)
          · intro q hq he
            have hp : p = q := by simpa [Mngr.goto] using he
            exact hfree key (hp ▸ hq)
          · exact fun k hk => by simp [Mngr.goto, Std.ExtTreeMap.getElem?_insert, Ne.symm hk]
  | reaped env key rest server out hsweeper =>
      have htakes : m.takes (.sweep env) = some key := by simp [Mngr.takes, hsweeper]
      rw [spares_iff htakes]
      refine h.take_iff hsound ?_ ?_ ?_ fun _ => rfl
      · exact fun q _ => by simp [rooms_delete]
      · exact fun k hk => by simp [rooms_delete, hk]
      · exact fun q hq => room_delete hq
  | left s roomid tick p room hr hp =>
      refine iff_of_true (spares_of_not_takes rfl history) ?_
      exact h.keep rfl (survives_write hp _) fun _ _ _ hj => .inl hj
  | aside event connections server sweeper out htakes hb hstill =>
      refine iff_of_true (spares_of_not_takes htakes history) ?_
      exact h.keep rfl (.refl m) fun _ _ _ hj => .inl hj

theorem Mngr.Settled.effective (h : m.Settled) : m.Effective := by
  intro i key p hi
  simp [Mngr.found, h.calls] at hi

-- In a run of any number of calls with the sweeps, every join that goes on to add its viewer
-- adds it to the room that is stored for its camera, exactly if no step takes a room off
-- `rooms_` while a join stands between its look-up of this room and its `LiveRoom::join`.
theorem joins_effective_iff {start : Mngr} {history : CallHistory} (hstart : start.Settled)
    (run : Run callStep free start history m) :
    Run callStep spares start history m ↔
      ∀ earlier state, earlier <:+ history → Run callStep free start earlier state →
        state.Effective := by
  refine run.guarded_iff_under (fun _ m => m.Sound) (fun _ m => m.Effective) hstart.sound ?_
    hstart.effective ?_
  · exact fun history before event after shown h hs => h.step hs
  · exact fun history before event after shown hsound h hs => step_effective_iff hsound h hs history

def idleMngr : Mngr :=
  { connections := ∅, server := ⟨[]⟩, rooms := ∅, heap := [], calls := [], sweeper := .idle }

theorem idleMngr_settled : idleMngr.Settled where
  calls := rfl
  live := by simp [idleMngr]
  inj := by simp [idleMngr]

-- A test that is enough for a step to spare the joins.
def sparesAll (_ : CallHistory) (m : Mngr) (event : CallEvent) : Bool :=
  (m.takes event).all fun key => m.calls.all fun call => call.found.all fun f => f.1 ≠ key

theorem spares_of_sparesAll (history : CallHistory) (m : Mngr) (event : CallEvent)
    (h : sparesAll history m event = true) : spares history m event := by
  intro key htakes i p hi
  obtain ⟨call, hc, hf⟩ := Option.bind_eq_some_iff.mp hi
  simp only [sparesAll, htakes, Option.all_some, List.all_eq_true] at h
  have hno := h call (List.mem_of_getElem? hc)
  simp [hf] at hno

-- An adapter with one camera logs in and reports it online.
def cameraOnline (fd : Int) (cmsid pid : String) : List CallEvent :=
  [.adapter (.frame fd REQ_LOGIN 0 (ReqLogin.encode ⟨cmsid, ""⟩)
      (frameEnv [{ pid, name := pid, allday := 1 }])),
    .adapter (.frame fd UPDATE_CHANGE 0 (encodeItems [⟨pid, 1⟩]) (frameEnv []))]

-- The call of this number takes some steps.
def advanceCall (i n : Nat) (tick : UInt64) : List CallEvent :=
  List.replicate n (.advance i (requestEnv "t" tick))

-- The state thread takes some steps, in a world where adapters answer every stop.
def sweepSteps (n : Nat) (tick : UInt64) : List CallEvent :=
  List.replicate n (.sweep ⟨tick, ⟨fun _ => 0, true, true⟩⟩)

-- Viewer 1 opens the room of the camera and leaves it; viewer 2 looks it up.
def lookedUpEmpty : List CallEvent :=
  [.established 1 0, .established 2 0] ++ cameraOnline 7 "A" "d" ++ [.join 1 "A" "d"] ++
    advanceCall 0 6 0 ++ [.quit 1 "A" "d"] ++ advanceCall 1 5 1000 ++ [.join 2 "A" "d"] ++
    advanceCall 2 2 61001

-- Viewer 2 is added before the state thread looks at the room.
theorem joins_effective_before_sweep :
    ∃ history m, Run callStep spares idleMngr history m ∧
      m.calls[2]? = some (.join 2 "A" "d" (.joined 0 1)) ∧
      ∀ earlier state, earlier <:+ history → Run callStep free idleMngr earlier state →
        state.Effective := by
  obtain ⟨history, m, run, ht⟩ := exists_run_of_ends callStep spares idleMngr
    (lookedUpEmpty ++ advanceCall 2 1 61001 ++ sweepSteps 3 61001)
    (fun _ m => m.calls[2]? == some (.join 2 "A" "d" (.joined 0 1)))
    (guarded_of_passes sparesAll spares_of_sparesAll (by decide +kernel)) (by decide +kernel)
  refine ⟨history, m, run, by simpa using ht, ?_⟩
  exact (joins_effective_iff idleMngr_settled run.unguarded).mp run

-- The state thread finds the room empty for more than a minute and deletes it after viewer 2
-- has looked it up.
theorem joins_not_effective :
    ¬ ∀ history m, Run callStep free idleMngr history m → m.Effective := by
  intro hall
  obtain ⟨history, m, run, ht⟩ := exists_run_of_ends callStep free idleMngr
    (lookedUpEmpty ++ sweepSteps 3 61001)
    (fun _ m => m.found 2 == some ("Ad", 0) && m.rooms["Ad"]? == none)
    (guarded_free _ _ _) (by decide +kernel)
  simp only [Bool.and_eq_true, beq_iff_eq] at ht
  have heffective := hall history m run 2 "Ad" 0 ht.1
  rw [ht.2] at heffective
  cases heffective.1

end VideoAdapter.Wss

import VideoAdapter.Wss.Calls.NewRoom
import VideoAdapter.Wss.Calls.Wired

namespace VideoAdapter.Wss

open Adapter Lib
open Service (RequestEnv)

variable {m base after : Mngr} {i j : Nat} {call call' : Call} {s : Int} {c d token key : String}
  {p : Nat} {room : LiveRoom} {event : CallEvent} {shown : Shown} {history : CallHistory}
  {env : RequestEnv}
  {start : Mngr} {record : CallEvent × Shown}

theorem Wired.of_step (hguard : notifies token history m event)
    (hs : callStep m event = some (after, shown)) :
    Wired m.connections after.connections shown.out := by
  cases event with
  | notifyHls t =>
      cases hs
      exact .silent _ (by simp)
  | advance i env => exact advance_wired hs
  | join s' c' d' => exact hguard.elim
  | quit s' c' d' => exact hguard.elim
  | sweep env => exact hguard.elim
  | leave s' roomid tick => exact hguard.elim
  | established s' tick => exact hguard.elim
  | removeConnection s' => exact hguard.elim
  | adapter event => exact hguard.elim

-- What the flag of the new room and the messages say about the searches.
structure Told (start : Mngr) (s : Int) (c d token : String) (history : CallHistory)
    (m : Mngr) : Prop where
  making : Making start s c d token history m
  registered : m.connections.registered s = start.connections.registered s
  heard : Heard s history → start.connections.registered s = true
  flag : ∀ room, m.room start.heap.length = some room → room.rdy = true →
    start.Foremost token (c ++ d) ∧ SearchedAfterStore token (c ++ d) history
  ready : ∀ (i : Nat) (pc : HlsPc), m.calls[i]? = some (Call.hls token pc) →
    pc.announced start.heap.length →
    ∃ room, m.room start.heap.length = some room ∧ room.rdy = true
  searched : start.Foremost token (c ++ d) → SearchedAfterStore token (c ++ d) history →
    ∃ (i : Nat) (pc : HlsPc), m.calls[i]? = some (Call.hls token pc) ∧ pc.onto start.heap.length
  told : ∀ i : Nat, m.calls[i]? = some (Call.hls token (.done (some start.heap.length))) →
    start.connections.registered s = true → Heard s history

theorem Told.heard_step (h : Told start s c d token history m)
    (hwired : Wired m.connections after.connections shown.out)
    (hheard : Heard s ((event, shown) :: history)) : start.connections.registered s = true := by
  obtain ⟨data, hcode, record, hm, hr⟩ := hheard
  rcases List.mem_cons.mp hm with rfl | hm
  · rw [← h.registered]
    exact hwired.replies s data hr
  · exact h.heard ⟨data, hcode, record, hm, hr⟩

theorem searched_of_cons (hregion : record.2.region ≠ some (.search token))
    (h : SearchedAfterStore token key (record :: history)) :
    SearchedAfterStore token key history := by
  rcases h with ⟨hr, -⟩ | h
  · exact absurd hr hregion
  · exact h

theorem Told.began (h : Told start s c d token history m)
    (hmaking : Making start s c d token ((event, {}) :: history)
      { m with calls := m.calls ++ [.hls token .search] })
    (hwired : Wired m.connections m.connections []) :
    Told start s c d token ((event, {}) :: history)
      { m with calls := m.calls ++ [.hls token .search] } := by
  refine ⟨hmaking, h.registered, h.heard_step hwired, ?_, ?_, ?_, ?_⟩
  · exact fun room hroom hrdy => (h.flag room hroom hrdy).imp_right .inr
  · intro j pc hj ha
    rcases getElem?_append_one hj with hj | he
    · exact h.ready j pc hj ha
    · cases he
      exact ha.elim
  · intro hforemost hsearched
    obtain ⟨j, pc, hj, ho⟩ := h.searched hforemost (searched_of_cons (by simp) hsearched)
    have hlt : j < m.calls.length := (List.getElem?_eq_some_iff.mp hj).1
    exact ⟨j, pc, (List.getElem?_append_left hlt).trans hj, ho⟩
  · intro j hj hreg
    rcases getElem?_append_one hj with hj | he
    · exact (h.told j hj hreg).cons _
    · cases he

-- A move of the join changes no room that exists, and the room it creates is not ready.
theorem Making.join_room {pc pc' : Pc} {out : List Output}
    (h : Making start s c d token history m) (hc : m.calls[0]? = some (.join s c d pc))
    (hmove : Move m (.join s c d pc) base (.join s c d pc') out) :
    (∀ room, m.room start.heap.length = some room → base.room start.heap.length = some room) ∧
    ∀ room, base.room start.heap.length = some room →
      m.room start.heap.length = some room ∨ room.rdy = false := by
  cases h.stage with
  | building hc' hrooms hlen hnot =>
      rw [hc] at hc'
      cases hc'
      cases hmove with
      | joinCreated _ _ _ _ =>
          have hnew := (room_append m (newRoom c d token s) start.heap.length).trans
            (if_pos hlen.symm)
          refine ⟨fun room hroom => ?_, fun room hroom => .inr ?_⟩
          · have hlt := (List.getElem?_eq_some_iff.mp (heap_of_room hroom)).1
            omega
          · rw [hnew] at hroom
            cases hroom
            rfl
  | built resp hc' hrooms hroom hnot =>
      rw [hc] at hc'
      cases hc'
      cases hmove with
      | joinStored _ _ _ _ _ => exact ⟨fun _ h => h, fun _ h => .inl h⟩
  | stored pc₀ room hc' hpc hrooms hroom htoken huser hst =>
      rw [hc] at hc'
      cases hc'
      rcases hpc with ⟨resp, rfl⟩ | ⟨code, rfl⟩
      · cases hmove with
        | joinAccepted _ _ _ _ connections _ hout => exact ⟨fun _ h => h, fun _ h => .inl h⟩
      · cases hmove

theorem Told.join {pc pc' : Pc} (h : Told start s c d token history m)
    (hc : m.calls[0]? = some (.join s c d pc))
    (hmove : Move m (.join s c d pc) base (.join s c d pc') shown.out)
    (hregion : shown.region = pc.region (c ++ d))
    (hmaking : Making start s c d token ((event, shown) :: history)
      (base.goto 0 (.join s c d pc')))
    (hwired : Wired m.connections (base.goto 0 (.join s c d pc')).connections shown.out) :
    Told start s c d token ((event, shown) :: history) (base.goto 0 (.join s c d pc')) := by
  obtain ⟨hforth, hback⟩ := h.making.join_room hc hmove
  refine ⟨hmaking, (hwired.registered s).trans h.registered, h.heard_step hwired, ?_, ?_, ?_, ?_⟩
  · intro room hroom hrdy
    rcases hback room hroom with hroom | hnot
    · exact (h.flag room hroom hrdy).imp_right .inr
    · simp [hrdy] at hnot
  · intro j q hj ha
    rcases getElem?_goto hc hmove.calls hj with ⟨-, he⟩ | ⟨-, hj⟩
    · cases he
    · obtain ⟨room, hroom, hrdy⟩ := h.ready j q hj ha
      exact ⟨room, hforth room hroom, hrdy⟩
  · intro hforemost hsearched
    have hno : shown.region ≠ some (.search token) := by
      rw [hregion]
      cases pc <;> simp [Pc.region]
    obtain ⟨j, q, hj, ho⟩ := h.searched hforemost (searched_of_cons hno hsearched)
    have hne : j ≠ 0 := by
      rintro rfl
      rw [hc] at hj
      cases hj
    refine ⟨j, q, ?_, ho⟩
    simp [Mngr.goto, hmove.calls, Ne.symm hne, hj]
  · intro j hj hreg
    rcases getElem?_goto hc hmove.calls hj with ⟨-, he⟩ | ⟨-, hj⟩
    · cases he
    · exact (h.told j hj hreg).cons _

-- A `NotifyHls` that has found the new room stays with it.
theorem Move.onto {pc pc' : HlsPc} {out : List Output}
    (hmove : Move m (.hls token pc) base (.hls token pc') out) (ho : pc.onto p) : pc'.onto p := by
  cases hmove with
  | hlsFound _ q _ hq => exact ho.elim
  | hlsAbsent _ _ hq => exact ho.elim
  | hlsReady _ q old _ hq => exact ho
  | hlsSized _ q old _ hq => exact ho
  | hlsBroadcast _ q isize old connections _ hq => exact congrArg some ho

theorem Move.hls_grows {pc pc' : HlsPc} {out : List Output}
    (hmove : Move m (.hls token pc) base (.hls token pc') out) (s : Int)
    (hroom : m.room p = some room) : ∃ last, base.room p = some last ∧ Grows s room last := by
  cases hmove with
  | hlsReady _ q old _ hq => exact grows_write hroom hq fun _ => ⟨id, fun _ => rfl⟩
  | hlsFound _ q _ hq => exact ⟨room, hroom, .refl s room⟩
  | hlsAbsent _ _ hq => exact ⟨room, hroom, .refl s room⟩
  | hlsSized _ q old _ hq => exact ⟨room, hroom, .refl s room⟩
  | hlsBroadcast _ q isize old connections _ hq => exact ⟨room, hroom, .refl s room⟩

-- A room is what it was, or is made ready by a call that has found it.
theorem Move.flag {pc pc' : HlsPc} {out : List Output}
    (hmove : Move m (.hls token pc) base (.hls token pc') out)
    (hroom : base.room p = some room) : m.room p = some room ∨ pc.onto p := by
  cases hmove with
  | hlsReady _ q old _ hq =>
      rw [room_write hq] at hroom
      split at hroom
      · rename_i he
        exact .inr he.symm
      · exact .inl hroom
  | hlsFound _ q _ hq => exact .inl hroom
  | hlsAbsent _ _ hq => exact .inl hroom
  | hlsSized _ q old _ hq => exact .inl hroom
  | hlsBroadcast _ q isize old connections _ hq => exact .inl hroom

theorem Making.viewer (h : Making start s c d token history m) (hst : Stored (c ++ d) history)
    (hroom : m.room start.heap.length = some room) : s ∈ room.users := by
  cases h.stage with
  | building hc hrooms hlen hnot => exact absurd hst hnot
  | built resp hc hrooms hp hnot => exact absurd hst hnot
  | stored pc old hc hpc hrooms hp htoken huser _ =>
      rw [hroom] at hp
      cases hp
      exact huser

theorem Told.hls {pc pc' : HlsPc} (hstart : Creating start s c d token)
    (h : Told start s c d token history m) (hc : m.calls[i]? = some (.hls token pc))
    (hmove : Move m (.hls token pc) base (.hls token pc') shown.out)
    (hregion : shown.region = Call.region (.hls token pc))
    (hmaking : Making start s c d token ((event, shown) :: history) (base.goto i (.hls token pc')))
    (hwired : Wired m.connections (base.goto i (.hls token pc')).connections shown.out) :
    Told start s c d token ((event, shown) :: history) (base.goto i (.hls token pc')) := by
  have hself : (base.goto i (.hls token pc')).calls[i]? = some (.hls token pc') := by
    have hlt : i < m.calls.length := (List.getElem?_eq_some_iff.mp hc).1
    simp [Mngr.goto, hmove.calls, hlt]
  refine ⟨hmaking, (hwired.registered s).trans h.registered, h.heard_step hwired, ?_, ?_, ?_, ?_⟩
  · intro room hroom hrdy
    rcases hmove.flag hroom with hroom | ho
    · exact (h.flag room hroom hrdy).imp_right .inr
    · exact (h.making.found i pc hc ho).imp_right .inr
  · intro j q hj ha
    have hkept : (∃ room, m.room start.heap.length = some room ∧ room.rdy = true) →
        ∃ last, base.room start.heap.length = some last ∧ last.rdy = true := by
      rintro ⟨room, hroom, hrdy⟩
      obtain ⟨last, hlast, hgrows⟩ := hmove.hls_grows s hroom
      exact ⟨last, hlast, hgrows.rdy hrdy⟩
    rcases getElem?_goto hc hmove.calls hj with ⟨-, he⟩ | ⟨-, hj⟩
    · cases he
      rcases hmove.announced ha with ha | hnew
      · exact hkept (h.ready i pc hc ha)
      · exact hnew
    · exact hkept (h.ready j q hj ha)
  · intro hforemost hsearched
    rcases hsearched with ⟨hr, hst⟩ | hsearched
    · have hfound := (h.making.search_iff hstart).mpr ⟨hst, hforemost⟩
      rw [hregion] at hr
      cases hmove with
      | hlsFound _ q _ hq => exact ⟨i, _, hself, Option.some.inj (hq.symm.trans hfound)⟩
      | hlsAbsent _ _ hq => simp [hfound] at hq
      | hlsReady _ q old _ hq => cases hr
      | hlsSized _ q old _ hq => cases hr
      | hlsBroadcast _ q isize old connections _ hq => cases hr
    · obtain ⟨j, q, hj, ho⟩ := h.searched hforemost hsearched
      by_cases hji : j = i
      · subst hji
        rw [hc] at hj
        cases hj
        exact ⟨j, pc', hself, hmove.onto ho⟩
      · refine ⟨j, q, ?_, ho⟩
        simp [Mngr.goto, hmove.calls, Ne.symm hji, hj]
  · intro j hj hreg
    rcases getElem?_goto hc hmove.calls hj with ⟨-, he⟩ | ⟨-, hj⟩
    · cases he
      cases hmove with
      | hlsBroadcast _ _ isize room connections _ hp hout =>
          have hst := stored_of_searched (h.making.found i _ hc rfl).2
          exact heard_now rfl (hout s (h.making.viewer hst hp) (h.registered.trans hreg))
    · exact (h.told j hj hreg).cons _

theorem Creating.told (h : Creating m s c d token) : Told m s c d token [] m := by
  have hnone : m.room m.heap.length = none := by simp [Mngr.room]
  refine ⟨h.making, rfl, ?_, ?_, ?_, fun _ hsearched => hsearched.elim, ?_⟩
  · rintro ⟨data, -, record, hm, -⟩
    cases hm
  · intro room hroom
    rw [hnone] at hroom
    cases hroom
  · intro j pc hj
    rw [h.calls] at hj
    cases List.mem_singleton.mp (List.mem_of_getElem? hj)
  · intro j hj
    rw [h.calls] at hj
    cases List.mem_singleton.mp (List.mem_of_getElem? hj)

theorem Told.step (hstart : Creating start s c d token) (h : Told start s c d token history m)
    (hguard : notifies token history m event) (hs : callStep m event = some (after, shown)) :
    Told start s c d token ((event, shown) :: history) after := by
  have hmaking := h.making.step hstart hguard hs
  have hwired := Wired.of_step hguard hs
  rcases h.making.cases hguard hs with ⟨rfl, rfl⟩ | ⟨base, pc, pc', hc, hmove, hregion, rfl⟩ |
    ⟨i, base, pc, pc', hi, hc, hmove, hregion, rfl⟩
  · exact h.began hmaking hwired
  · exact h.join hc hmove hregion hmaking hwired
  · exact h.hls hstart hc hmove hregion hmaking hwired

theorem told_of_run (hstart : Creating start s c d token)
    (run : Run callStep (notifies token) start history m) : Told start s c d token history m :=
  run.invariant (Told start s c d token) hstart.told fun _ _ _ _ _ h hguard hs =>
    h.step hstart hguard hs

-- Once the join that creates a room and all calls of `NotifyHls` for its token are through,
-- the room is ready and its viewer has been told so, exactly if the viewer is connected, no
-- room before it has the token, and one of the calls made its search after the room had been
-- stored.
theorem new_room_ready_iff (hstart : Creating start s c d token)
    (run : Run callStep (notifies token) start history m)
    (hdone : ∀ call ∈ m.calls, call.finished = true) :
    (∃ p room, m.rooms[c ++ d]? = some p ∧ m.room p = some room ∧ room.rdy = true ∧
      Heard s history) ↔
    start.connections.registered s = true ∧ start.Foremost token (c ++ d) ∧
      SearchedAfterStore token (c ++ d) history := by
  have h := told_of_run hstart run
  cases h.making.stage with
  | building hc hrooms hlen hnot => simpa [Call.finished] using hdone _ (List.mem_of_getElem? hc)
  | built resp hc hrooms hroom hnot =>
      simpa [Call.finished] using hdone _ (List.mem_of_getElem? hc)
  | stored pc room hc hpc hrooms hroom htoken huser hst =>
      have hstored : m.rooms[c ++ d]? = some start.heap.length := by simp [hrooms]
      constructor
      · rintro ⟨p, last, hp, hlast, hrdy, hheard⟩
        rw [hstored] at hp
        cases hp
        exact ⟨h.heard hheard, h.flag last hlast hrdy⟩
      · rintro ⟨hreg, hforemost, hsearched⟩
        obtain ⟨i, pc, hi, ho⟩ := h.searched hforemost hsearched
        -- the call that has found the room is through, so it has set the flag and told the viewer
        have hfin := hdone _ (List.mem_of_getElem? hi)
        cases pc with
        | done found =>
            have hfound : found = some start.heap.length := ho
            subst hfound
            obtain ⟨last, hlast, hrdy⟩ := h.ready i _ hi rfl
            exact ⟨_, last, hstored, hlast, hrdy, h.told i hi hreg⟩
        | search => cases hfin
        | ready q => cases hfin
        | size q => cases hfin
        | broadcast q isize => cases hfin


-- The order of the regions decides whether a search came after the store.
theorem searchedAfterStore_of_regions (later earlier : List (Option Region)) (p : Nat)
    (h : history.map (·.2.region) = later ++ some (.search token) :: earlier)
    (hstore : some (.store key p) ∈ earlier) : SearchedAfterStore token key history := by
  induction later generalizing history with
  | nil =>
      obtain ⟨record, rest, rfl, hr, hrest⟩ := List.map_eq_cons_iff.mp h
      rw [← hrest] at hstore
      obtain ⟨old, hm, hold⟩ := List.mem_map.mp hstore
      exact .inl ⟨hr, old, hm, p, hold⟩
  | cons region later ih =>
      obtain ⟨record, rest, rfl, -, hrest⟩ := List.map_eq_cons_iff.mp h
      exact .inr (ih hrest)

-- A test that is enough for an event to belong to the join and its notifications.
def notifiesTest (token : String) (_ : CallHistory) (_ : Mngr) : CallEvent → Bool
  | .notifyHls t => t = token
  | .advance _ _ => true
  | _ => false

theorem notifies_of_notifiesTest (token : String) (history : CallHistory) (m : Mngr)
    (event : CallEvent) (h : notifiesTest token history m event = true) :
    notifies token history m event := by
  cases event with
  | notifyHls t => simpa [notifiesTest, notifies] using h
  | advance i env => trivial
  | join s c d => cases h
  | quit s c d => cases h
  | sweep env => cases h
  | leave s roomid tick => cases h
  | established s tick => cases h
  | removeConnection s => cases h
  | adapter event => cases h

-- The adapter has answered the push of viewer 1 with its token; no room is stored yet.
def creatingMngr : Mngr :=
  { playingMngr with rooms := ∅, heap := [], calls := [.join 1 "A" "d" (.create "t")] }

theorem creatingMngr_creating : Creating creatingMngr 1 "A" "d" "t" where
  calls := rfl
  live := by simp [creatingMngr]

-- The search falls between the store and the answer.
theorem new_room_ready_after_store :
    ∃ history m, Run callStep (notifies "t") creatingMngr history m ∧
      m.calls = [.join 1 "A" "d" (.done 102), .hls "t" (.done (some 0))] ∧
      ∃ p room, m.rooms["A" ++ "d"]? = some p ∧ m.room p = some room ∧ room.rdy = true ∧
        Heard 1 history := by
  obtain ⟨history, m, run, ht⟩ := exists_run_of_ends callStep (notifies "t") creatingMngr
    ([.notifyHls "t"] ++ advanceCall 0 2 0 ++ advanceCall 1 1 0 ++ advanceCall 0 1 0 ++
      advanceCall 1 3 0)
    (fun history m => m.calls == [.join 1 "A" "d" (.done 102), .hls "t" (.done (some 0))] &&
      (history.map (·.2.region) == [none, none, none, none, some (.search "t"),
        some (.store "Ad" 0), none, none]))
    (guarded_of_passes (notifiesTest "t") (notifies_of_notifiesTest "t") (by decide +kernel))
    (by decide +kernel)
  simp only [Bool.and_eq_true, beq_iff_eq] at ht
  obtain ⟨hcalls, hregions⟩ := ht
  refine ⟨history, m, run, hcalls, ?_⟩
  refine (new_room_ready_iff creatingMngr_creating run ?_).mpr ⟨by decide +kernel, ?_, ?_⟩
  · simp [hcalls, Call.finished]
  · intro k q room hq
    simp [creatingMngr] at hq
  · exact searchedAfterStore_of_regions [none, none, none, none]
      [some (.store "Ad" 0), none, none] 0 hregions (by decide)

-- The stream is ready before the room is stored: the notification finds no room, and the
-- viewer waits in a room that is never ready.
theorem new_room_not_ready :
    ¬ ∀ start s c d token history m, Creating start s c d token →
      Run callStep (notifies token) start history m →
      (∀ call ∈ m.calls, call.finished = true) →
      (∃ found, .hls token (.done found) ∈ m.calls) →
      ∃ p room, m.rooms[c ++ d]? = some p ∧ m.room p = some room ∧ room.rdy = true ∧
        Heard s history := by
  intro hall
  obtain ⟨history, m, run, ht⟩ := exists_run_of_ends callStep (notifies "t") creatingMngr
    ([.notifyHls "t"] ++ advanceCall 1 1 0 ++ advanceCall 0 3 0)
    (fun _ m => m.calls == [.join 1 "A" "d" (.done 102), .hls "t" (.done none)] &&
      m.rooms["Ad"]? == some 0 && (m.room 0).map (·.rdy) == some false)
    (guarded_of_passes (notifiesTest "t") (notifies_of_notifiesTest "t") (by decide +kernel))
    (by decide +kernel)
  simp only [Bool.and_eq_true, beq_iff_eq] at ht
  obtain ⟨⟨hcalls, hstored⟩, hflag⟩ := ht
  obtain ⟨p, room, hp, hroom, hrdy, -⟩ := hall creatingMngr 1 "A" "d" "t" history m
    creatingMngr_creating run (by simp [hcalls, Call.finished]) ⟨none, by simp [hcalls]⟩
  have hkey : "A" ++ "d" = "Ad" := by decide
  rw [hkey, hstored] at hp
  cases hp
  simp [hroom, hrdy] at hflag

end VideoAdapter.Wss

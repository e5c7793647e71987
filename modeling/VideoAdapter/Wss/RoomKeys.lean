import VideoAdapter.Wss.View.Lemmas

namespace VideoAdapter.Wss

open Adapter Lib
open Service (RequestEnv)

abbrev Rooms := Std.ExtTreeMap String LiveRoom

def LiveRoom.isOf (room : LiveRoom) (c d : String) : Bool := room.cmsid = c ∧ room.devid = d

namespace Service

def mapRooms (w : Service) (f : Rooms → Rooms) : Service := { w with rooms := f w.rooms }

-- The service as the requests for one camera may see it: without the rooms of others.
def only (w : Service) (c d : String) : Service :=
  w.mapRooms fun rooms => rooms.filter fun _ room => room.isOf c d

variable {w : Service} {s : Int} {c d : String} {env : RequestEnv}

theorem send_mapRooms (f : Rooms → Rooms) (data : Reply) :
    (w.mapRooms f).send s data = (w.send s data).map fun (w, out) => (w.mapRooms f, out) := by
  simp only [send, mapRooms, Option.map_map]
  rfl

theorem accept_mapRooms (f : Rooms → Rooms) (k : String) (resp : Reply) (tick : UInt64) :
    (w.mapRooms f).accept s k resp tick =
      (w.accept s k resp tick).map fun (w, out) => (w.mapRooms f, out) := by
  simp only [accept, send_mapRooms, Option.bind_eq_bind, Option.map_bind, Option.bind_map,
    Function.comp_def, Option.pure_def, Option.map_some]
  rfl

theorem filter_erase (rooms : Rooms) (k : String) (keep : String → LiveRoom → Bool) :
    (rooms.filter keep).erase k = (rooms.erase k).filter keep := by
  apply Std.ExtTreeMap.ext_getElem?
  intro x
  by_cases hx : k = x <;> simp [Std.ExtTreeMap.getElem?_erase, hx]

theorem filter_insert (rooms : Rooms) (k : String) {room : LiveRoom}
    (keep : String → LiveRoom → Bool) (hroom : keep k room = true) :
    (rooms.filter keep).insert k room = (rooms.insert k room).filter keep := by
  apply Std.ExtTreeMap.ext_getElem?
  intro x
  by_cases hx : k = x
  · subst hx
    simp [Option.filter, hroom]
  · simp [Std.ExtTreeMap.getElem?_insert, hx]

theorem send_only (w : Service) (s : Int) (c d : String) (data : Reply) :
    (w.only c d).send s data = (w.send s data).map fun (w, out) => (w.only c d, out) :=
  send_mapRooms _ _

theorem accept_only (w : Service) (s : Int) (c d k : String) (resp : Reply) (tick : UInt64) :
    (w.only c d).accept s k resp tick =
      (w.accept s k resp tick).map fun (w, out) => (w.only c d, out) :=
  accept_mapRooms _ _ _ _

theorem only_erase (k : String) :
    (w.only c d).rooms.erase k = (only { w with rooms := w.rooms.erase k } c d).rooms :=
  filter_erase ..

theorem only_insert (k : String) {room : LiveRoom} (hroom : room.isOf c d = true) :
    (w.only c d).rooms.insert k room = (only { w with rooms := w.rooms.insert k room } c d).rooms :=
  filter_insert _ k (fun _ room => room.isOf c d) hroom

-- With its own room under its key, or none, a request sees and does the same without the
-- rooms of other cameras.
theorem only_rooms (hown : ∀ room, w.rooms[c ++ d]? = some room → room.isOf c d = true) :
    (w.only c d).rooms[c ++ d]? = w.rooms[c ++ d]? := by
  cases hr : w.rooms[c ++ d]? with
  | none => simp [only, mapRooms, hr]
  | some room => simp [only, mapRooms, hr, Option.filter, hown room hr]

theorem startLiveroom_only (w : Service) (s : Int) (c d : String) (env : RequestEnv) :
    (w.only c d).startLiveroom s c d env =
      (w.startLiveroom s c d env).map fun (w, out) => (w.only c d, out) := by
  have hroom : ∀ token, (LiveRoom.join { cmsid := c, devid := d, token } s).isOf c d = true := by
    intro token
    simp [LiveRoom.isOf]
  unfold startLiveroom
  simp only [show (w.only c d).server = w.server from rfl, only_insert _ (hroom _)]
  generalize AdapterServer.notifyStartPush w.server c d env.start = start
  split
  · have hsend := send_only { w with server := start.2.1 } s c d (failReply start.1.result)
    simp only [Option.map_map]
    exact (congrArg (Option.map _) hsend).trans (by rw [Option.map_map]; rfl)
  · have haccept := accept_only { w with
      rooms := w.rooms.insert (c ++ d) (LiveRoom.join { cmsid := c, devid := d, token := start.1.token } s)
      server := start.2.1 } s c d (c ++ d)
    simp only [Option.map_map]
    exact (congrArg (Option.map _) (haccept _ _)).trans (by rw [Option.map_map]; rfl)

theorem joinLiveroom_only (hown : ∀ room, w.rooms[c ++ d]? = some room → room.isOf c d = true) :
    (w.only c d).joinLiveroom s c d env =
      (w.joinLiveroom s c d env).map fun (w, out) => (w.only c d, out) := by
  unfold joinLiveroom
  simp only [show (w.only c d).server = w.server from rfl, only_rooms hown, only_erase]
  split
  · rfl
  · split
    · exact send_only { w with rooms := w.rooms.erase (c ++ d) } s c d _
    · split
      · exact startLiveroom_only { w with rooms := w.rooms.erase (c ++ d) } s c d env
      · split
        · split
          · rename_i room hr
            have hroom : (room.join s).isOf c d = true := by
              simpa [LiveRoom.isOf] using hown room hr
            rw [only_insert _ hroom]
            exact accept_only { w with rooms := w.rooms.insert (c ++ d) (room.join s) } s c d _ _ _
          · exact send_only w s c d _
        · exact send_only w s c d _

theorem quitLiveroom_only (hown : ∀ room, w.rooms[c ++ d]? = some room → room.isOf c d = true) :
    (w.only c d).quitLiveroom s c d env =
      (w.quitLiveroom s c d env).map fun (w, out) => (w.only c d, out) := by
  unfold quitLiveroom
  simp only [show (w.only c d).server = w.server from rfl, only_rooms hown, only_erase]
  split
  · rfl
  · split
    · split
      · rename_i room hr
        have hroom : (room.quit s env.tick).isOf c d = true := by
          simpa [LiveRoom.isOf] using hown room hr
        rw [only_insert _ hroom, Option.map_bind]
        refine Option.bind_congr fun connections _ => ?_
        exact send_only { w with
          connections, rooms := w.rooms.insert (c ++ d) (room.quit s env.tick) } s c d _
      · exact send_only w s c d _
    · exact send_only { w with rooms := w.rooms.erase (c ++ d) } s c d _

end Service

-- A join or quit request.
def roomRequest (text : Option Json.Value) (c d : String) : Prop :=
  decodeRequest text = .fields 100 c d ∨ decodeRequest text = .fields 200 c d

-- A join for the pair stands in the history.
def joinedBefore (history : History) (c d : String) : Prop :=
  ∃ s text env out, (Event.request s text env, out) ∈ history ∧
    decodeRequest text = .fields 100 c d

-- Every room was asked for by a join for its own camera.
def RoomsJoined (history : History) (v : View) : Prop :=
  ∀ (k : String) (room : LiveRoom), v.rooms[k]? = some room →
    joinedBefore history room.cmsid room.devid

variable {history : History} {v after : View} {event : Event} {out : List Output}

theorem joinedBefore.cons {c d : String} (h : joinedBefore history c d) (entry : Event × List Output) :
    joinedBefore (entry :: history) c d := by
  obtain ⟨s, text, env, out, hm, ht⟩ := h
  exact ⟨s, text, env, out, List.mem_cons_of_mem _ hm, ht⟩

theorem RoomsJoined.step (hv : RoomsJoined history v) (h : ViewStep v event out after) :
    RoomsJoined ((event, out) :: history) after := by
  intro k last hl
  rcases h.origin hl with ⟨room, hr, hc, hd⟩ | ⟨s, text, env, rfl, ht, -, -⟩
  · rw [hc, hd]
    exact (hv k room hr).cons _
  · exact ⟨s, text, env, out, List.mem_cons_self, ht⟩

-- A join or quit writes under its own key only, and only a room of its own camera.
structure Confined (v after : View) (c d : String) : Prop where
  others : ∀ x : String, c ++ d ≠ x → after.rooms[x]? = v.rooms[x]?
  own : (∀ room : LiveRoom, v.rooms[c ++ d]? = some room → room.isOf c d = true) →
    ∀ room : LiveRoom, after.rooms[c ++ d]? = some room → room.isOf c d = true

theorem Confined.eraseRoom (v : View) (c d : String) : Confined v (v.eraseRoom (c ++ d)) c d :=
  ⟨fun x hx => by simp [hx], fun _ room hr => by simp at hr⟩

theorem Confined.setRoom (v : View) (c d : String) (room : LiveRoom)
    (hroom : (∀ old : LiveRoom, v.rooms[c ++ d]? = some old → old.isOf c d = true) →
      room.isOf c d = true) : Confined v (v.setRoom (c ++ d) room) c d := by
  refine ⟨fun x hx => by simp [hx], fun hown last hl => ?_⟩
  simp only [View.rooms_setRoom, if_true, Option.some.injEq] at hl
  exact hl ▸ hroom hown

theorem JoinView.confined {s : Int} {c d : String} {env : RequestEnv}
    (h : JoinView v s c d env out after) : Confined v after c d := by
  cases h with
  | offline hs => exact .eraseRoom v c d
  | failed hs hr => exact ⟨(Confined.eraseRoom v c d).others, (Confined.eraseRoom v c d).own⟩
  | started hs hr =>
      have hset := Confined.setRoom v c d
        (newRoom c d (startResult v c d env).1.token s) fun _ => by simp [LiveRoom.isOf, newRoom]
      exact ⟨hset.others, hset.own⟩
  | joined room hs hr =>
      have hset := Confined.setRoom v c d (room.join s)
        fun hown => by simpa [LiveRoom.isOf] using hown room hr
      exact ⟨hset.others, hset.own⟩
  | unexpected hs hr => exact ⟨fun _ _ => rfl, fun hown => hown⟩

theorem QuitView.confined {s : Int} {c d : String} {env : RequestEnv}
    (h : QuitView v s c d env after) : Confined v after c d := by
  cases h with
  | left room hs hr =>
      have hset := Confined.setRoom v c d (room.quit s env.tick)
        fun hown => by simpa [LiveRoom.isOf] using hown room hr
      exact ⟨hset.others, hset.own⟩
  | noRoom hs hr => exact ⟨fun _ _ => rfl, fun hown => hown⟩
  | notPlaying n hs hn => exact .eraseRoom v c d

theorem ViewStep.confined {s : Int} {text : Option Json.Value} {env : RequestEnv} {c d : String}
    (hreq : roomRequest text c d) (h : ViewStep v (.request s text env) out after) :
    Confined v after c d := by
  cases h with
  | rejected s text env ht => simp [roomRequest, ht] at hreq
  | unknown s text env cmd c d ht hj hq hb => simp [roomRequest, ht, hj, hq] at hreq
  | join s text env c' d' ht h =>
      obtain ⟨rfl, rfl⟩ : c' = c ∧ d' = d := by simpa [roomRequest, ht] using hreq
      exact h.confined
  | quit s text env c' d' ht h =>
      obtain ⟨rfl, rfl⟩ : c' = c ∧ d' = d := by simpa [roomRequest, ht] using hreq
      exact h.confined
  | heartbeat s text env c d ht => simp [roomRequest, ht] at hreq

theorem step_only {w : Service} {s : Int} {text : Option Json.Value} {env : RequestEnv}
    {c d : String} (hreq : roomRequest text c d)
    (hown : ∀ room, w.rooms[c ++ d]? = some room → room.isOf c d = true) :
    step (w.only c d) (.request s text env) =
      (step w (.request s text env)).map fun (after, out) => (after.only c d, out) := by
  rcases hreq with ht | ht
  · simpa [step, Service.handleRequest, ht] using Service.joinLiveroom_only hown
  · simpa [step, Service.handleRequest, ht] using Service.quitLiveroom_only hown

-- A join or quit request for a camera whose concatenated id no earlier join of the run has
-- used for another camera: the room it finds is the room of its own camera, it does the
-- same when the rooms of all other cameras are hidden from it, and leaves these as they are.
theorem request_isolated {w : Service} {s : Int} {text : Option Json.Value} {env : RequestEnv}
    {c d : String} (run : Run step free initial history w) (hreq : roomRequest text c d)
    (hkeys : ∀ c' d', joinedBefore history c' d' → c' ++ d' = c ++ d → c' = c ∧ d' = d) :
    (∀ room : LiveRoom, w.rooms[c ++ d]? = some room → room.cmsid = c ∧ room.devid = d) ∧
    step (w.only c d) (.request s text env) =
      (step w (.request s text env)).map (fun (after, out) => (after.only c d, out)) ∧
    ∀ after out, step w (.request s text env) = some (after, out) →
      ∀ (k : String) (room : LiveRoom), ¬(room.cmsid = c ∧ room.devid = d) →
        (w.rooms[k]? = some room ↔ after.rooms[k]? = some room) := by
  obtain ⟨⟨hkeyed, hjoined⟩, hk⟩ :=
    view_invariant (fun history v => RoomKeyed v ∧ RoomsJoined history v)
      ⟨initial_roomKeyed, fun k room hr => by simp [initial, Service.view] at hr⟩
      (fun _ _ _ _ _ hv _ h => ⟨h.roomKeyed hv.1, hv.2.step h⟩) run
  have hown : ∀ room : LiveRoom, w.rooms[c ++ d]? = some room → room.cmsid = c ∧ room.devid = d :=
    fun room hr => hkeys _ _ (hjoined (c ++ d) room hr) (hkeyed (c ++ d) room hr)
  have hisOf : ∀ room, w.rooms[c ++ d]? = some room → room.isOf c d = true :=
    fun room hr => decide_eq_true (hown room hr)
  refine ⟨hown, step_only hreq hisOf, ?_⟩
  intro after out hs k room hne
  have hc := (step_view hk hs).1.confined hreq
  by_cases hx : c ++ d = k
  · subst hx
    constructor
    · intro hr
      exact absurd (hown room hr) hne
    · intro hr
      exact absurd (of_decide_eq_true (hc.own hisOf room hr)) hne
  · rw [show after.rooms[k]? = w.rooms[k]? from hc.others k hx]

def onlyJoins (c d : String) : Event → Bool
  | .request _ text _ => decodeRequest text = .fields 100 c d
  | _ => true

-- Two cameras with different ids, and a join for each.
theorem request_isolated_two_cameras :
    ∃ history w, Run step free initial history w ∧
      (w.rooms["Ad"]?).isSome ∧
      ∀ after out, step w (joinRequest 2 "A" "e" "u" 2) = some (after, out) →
        ∀ (k : String) (room : LiveRoom), ¬(room.cmsid = "A" ∧ room.devid = "e") →
          (w.rooms[k]? = some room ↔ after.rooms[k]? = some room) := by
  obtain ⟨history, w, run, ht⟩ := exists_run_of_ends step free initial
    [login 7 "A" ["d", "e"], report 7 "d" 1, report 7 "e" 1, .established 1 0,
      .established 2 0, joinRequest 1 "A" "d" "t" 1]
    (fun history w => (w.rooms["Ad"]?).isSome && history.all fun entry => onlyJoins "A" "d" entry.1)
    (guarded_free ..) (by decide +kernel)
  obtain ⟨hroom, hall⟩ := Bool.and_eq_true_iff.mp ht
  refine ⟨history, w, run, hroom, (request_isolated run (.inl (decodeRequest_join "A" "e")) ?_).2.2⟩
  rintro c' d' ⟨s, text, env, out, hm, hd⟩ hkey
  have hfields := List.all_eq_true.mp hall _ hm
  simp only [onlyJoins, decide_eq_true_eq] at hfields
  rw [hfields] at hd
  cases hd
  exact absurd hkey (by decide)

-- A join for adapter "ab" and device "c", neither of which exists, deletes the room of
-- adapter "a" and device "bc".
theorem request_not_isolated :
    ¬ ∀ history w s text env c d, Run step free initial history w → roomRequest text c d →
      ∀ after out, step w (.request s text env) = some (after, out) →
        ∀ (k : String) (room : LiveRoom), ¬(room.cmsid = c ∧ room.devid = d) →
          (w.rooms[k]? = some room ↔ after.rooms[k]? = some room) := by
  intro hall
  obtain ⟨history, w, run, ht⟩ := exists_run_of_ends step free initial
    [login 7 "a" ["bc"], report 7 "bc" 1, .established 1 0, .established 2 0,
      joinRequest 1 "a" "bc" "t" 1]
    (fun _ w => w.rooms["abc"]?.any (·.cmsid = "a") &&
      (step w (joinRequest 2 "ab" "c" "u" 2)).any fun x => x.1.rooms["abc"]?.isNone)
    (guarded_free ..) (by decide +kernel)
  obtain ⟨hany, hstep⟩ := Bool.and_eq_true_iff.mp ht
  obtain ⟨room, hr, hc⟩ := (Option.any_eq_true _ _).mp hany
  obtain ⟨⟨after, out⟩, hs, hnone⟩ := (Option.any_eq_true _ _).mp hstep
  simp only [decide_eq_true_eq] at hc
  have hsame := hall history w 2 _ _ "ab" "c" run (.inl (decodeRequest_join "ab" "c")) after out hs
    "abc" room (by simp [hc])
  simp [hsame.mp hr] at hnone

end VideoAdapter.Wss

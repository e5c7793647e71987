import VideoAdapter.Adapter.Pushing
import VideoAdapter.Wss.View.Lemmas

namespace VideoAdapter.Wss

open Adapter Lib
open Service (RequestEnv SweepEnv)

-- A request that deletes the room of its key and puts none in its place.
def View.erases (v : View) (text : Option Json.Value) (c d : String) (env : RequestEnv) : Prop :=
  v.status c d ≠ some 200 ∧
    (decodeRequest text = .fields 200 c d ∨
      decodeRequest text = .fields 100 c d ∧ ¬ v.starts c d env)

-- A room that the sweep takes away.
def due (env : SweepEnv) (room : LiveRoom) : Prop :=
  room.users = [] ∧ env.tick - room.timestamp > 60 * 1000

-- The stop of a playing camera is answered, if it is sent at all, and no other playing
-- camera has the key of the room that goes with it.
def stopsClean (v : View) (env : String → SweepEnv) : Prop :=
  ∀ (k : String) (room : LiveRoom), v.rooms[k]? = some room → due (env k) room →
    (v.status room.cmsid room.devid = some 200 →
      (env k).stop.sent = true → (env k).stop.answered = true) ∧
    ∀ c d, v.status c d = some 200 → c ++ d = k → c = room.cmsid ∧ d = room.devid

-- The steps that keep the room of every playing camera. A request deletes no room under the
-- key of a playing camera, a sweep stops what it deletes, and the adapter reports a device
-- as off line or online, the two values that the message has.
def keepsJoinable (_ : History) (w : Service) : Event → Prop
  | .request _ text env => ∀ c d, w.view.erases text c d env →
      ∀ c' d', w.view.status c' d' = some 200 → c' ++ d' ≠ c ++ d
  | .sweep env => stopsClean w.view env
  | .adapter (.frame fd cmd _ buf _) => cmd = UPDATE_CHANGE → (w.server.findClient fd).isSome →
      ∀ item ∈ stateItems buf, item.flag = 0 ∨ item.flag = 1
  | _ => True

structure Joinable (v : View) : Prop where
  distinct : Distinct v.server
  states : ∀ p ∈ v.server.clientlist, ∀ d n, getState p.devlist d = some n →
    n = 0 ∨ n = 1 ∨ n = 2
  named : ∀ (k : String) (room : LiveRoom), v.rooms[k]? = some room →
    room.cmsid ≠ "" ∧ room.devid ≠ ""
  room : ∀ c d, Pushing v.server c d → (v.rooms[c ++ d]?).isSome

variable {v after : View} {s : Int} {k c d : String} {env : RequestEnv} {out : List Output}

theorem Joinable.status (hv : Joinable v) : v.status c d = some 200 ↔ Pushing v.server c d :=
  checkStatus_playing hv.distinct

-- A change of the server that sets known states only, with a room for every camera that
-- pushes afterwards.
theorem Joinable.follow (hv : Joinable v) {extra : String → String → Int → Prop}
    (hf : Follows v.server after.server extra)
    (hextra : ∀ c d n, extra c d n → n = 0 ∨ n = 1 ∨ n = 2)
    (hnamed : ∀ (k : String) (room : LiveRoom), after.rooms[k]? = some room →
      room.cmsid ≠ "" ∧ room.devid ≠ "")
    (hroom : ∀ c d, Pushing after.server c d → (after.rooms[c ++ d]?).isSome) : Joinable after := by
  refine ⟨hf.distinct hv.distinct, ?_, hnamed, hroom⟩
  intro p hp d n hn
  rcases hf.states p hp d n hn with h0 | h1 | ⟨old, ho, -, hold⟩ | hx
  · exact .inl h0
  · exact .inr (.inl h1)
  · exact hv.states old ho d n hold
  · exact hextra p.cmsid d n hx

-- A step that changes the rooms only.
theorem Joinable.rooms (hv : Joinable v) (hserver : after.server = v.server)
    (hnamed : ∀ (k : String) (room : LiveRoom), after.rooms[k]? = some room →
      room.cmsid ≠ "" ∧ room.devid ≠ "")
    (hroom : ∀ c d, Pushing v.server c d → (v.rooms[c ++ d]?).isSome →
      (after.rooms[c ++ d]?).isSome) : Joinable after := by
  refine ⟨hserver ▸ hv.distinct, hserver ▸ hv.states, hnamed, ?_⟩
  intro c d hp
  rw [hserver] at hp
  exact hroom c d hp (hv.room c d hp)

theorem leave_isSome {tick : UInt64} {x : String} (h : (v.rooms[x]?).isSome) :
    ((v.leave s k tick).rooms[x]?).isSome := by
  rw [View.rooms_leave]
  split
  · simpa using h
  · exact h

theorem Timeouts.isSome (h : Timeouts v out after) {x : String} (hx : (v.rooms[x]?).isSome) :
    (after.rooms[x]?).isSome := by
  induction h with
  | done => exact hx
  | next s k tick hk hne rest ih => exact ih (leave_isSome hx)

-- One room of a sweep.
theorem Joinable.reap (hv : Joinable v) {env : String → SweepEnv}
    (hclean : stopsClean v env) {room : LiveRoom} (hr : v.rooms[k]? = some room)
    (hdue : due (env k) room) :
    Joinable ((v.eraseRoom k).withServer
      (AdapterServer.notifyStopPush v.server room.cmsid room.devid (env k).stop).2.1) := by
  have hf := notifyStopPush_follows v.server room.cmsid room.devid (env k).stop
  obtain ⟨hans, hsole⟩ := hclean k room hr hdue
  obtain ⟨hc, hd⟩ := hv.named k room hr
  refine hv.follow hf (fun _ _ _ hx => hx.elim)
    (fun x r hx => hv.named x r (View.eraseRoom_origin hx)) ?_
  intro c d hp
  have hbefore : Pushing v.server c d := (hf.pushing hp).resolve_right fun ⟨_, hx, _⟩ => hx
  rw [View.rooms_withServer, View.rooms_eraseRoom, if_neg]
  · exact hv.room c d hbefore
  · intro hk
    obtain ⟨rfl, rfl⟩ := hsole c d (hv.status.mpr hbefore) hk.symm
    refine not_pushing_of_stop hv.distinct hc hd (fun p hp n => hv.states p hp _ n) ?_ hp
    exact fun hpush => hans (hv.status.mpr hpush)

theorem Joinable.sweep (hv : Joinable v) {env : String → SweepEnv} (hclean : stopsClean v env)
    (h : Sweep env v out after) : Joinable after := by
  induction h with
  | done => exact hv
  | @reap v after out k room hr hempty hdue rest ih =>
      have hnext := hv.reap hclean hr ⟨hempty, hdue⟩
      have hf := notifyStopPush_follows v.server room.cmsid room.devid (env k).stop
      -- what plays after the stop has played before it
      have hstatus : ∀ c d, ((v.eraseRoom k).withServer
          (AdapterServer.notifyStopPush v.server room.cmsid room.devid (env k).stop).2.1).status c d =
            some 200 → v.status c d = some 200 := by
        intro c d hs
        have hp := (hf.pushing (hnext.status.mp hs)).resolve_right fun ⟨_, hx, _⟩ => hx
        exact hv.status.mpr hp
      refine ih hnext fun x r hx hdue' => ?_
      obtain ⟨hans, hsole⟩ := hclean x r (View.eraseRoom_origin hx) hdue'
      exact ⟨fun hs => hans (hstatus _ _ hs), fun c d hs => hsole c d (hstatus c d hs)⟩

theorem ViewStep.named {event : Event}
    (hv : ∀ (k : String) (room : LiveRoom), v.rooms[k]? = some room →
      room.cmsid ≠ "" ∧ room.devid ≠ "")
    (h : ViewStep v event out after) (k : String) (room : LiveRoom)
    (hr : after.rooms[k]? = some room) : room.cmsid ≠ "" ∧ room.devid ≠ "" := by
  rcases h.origin hr with ⟨old, ho, hc, hd⟩ | ⟨s, text, env, -, -, hstarts, -⟩
  · rw [hc, hd]
    exact hv k old ho
  · exact View.starts_named hstarts

theorem View.isSome_setRoom {x : String} {room : LiveRoom} (h : (v.rooms[x]?).isSome) :
    ((v.setRoom k room).rooms[x]?).isSome := by
  rw [View.rooms_setRoom]
  split
  · rfl
  · exact h

theorem Joinable.join (hv : Joinable v)
    (hguard : v.status c d ≠ some 200 → ¬ v.starts c d env →
      ∀ c' d', v.status c' d' = some 200 → c' ++ d' ≠ c ++ d)
    (h : JoinView v s c d env out after)
    (hnamed : ∀ (k : String) (room : LiveRoom), after.rooms[k]? = some room →
      room.cmsid ≠ "" ∧ room.devid ≠ "") : Joinable after := by
  cases h with
  | offline hs =>
      have hne : v.status c d ≠ some 200 := by rcases hs with hs | hs <;> simp [hs]
      have hnot : ¬ v.starts c d env := by
        rintro ⟨hst, -⟩
        rcases hs with hs | hs <;> simp [hs] at hst
      refine hv.rooms rfl hnamed fun c' d' hp hr => ?_
      rwa [View.rooms_eraseRoom, if_neg]
      exact Ne.symm (hguard hne hnot c' d' (hv.status.mpr hp))
  | failed hs hr =>
      have hf := notifyStartPush_follows v.server c d env.start
      refine hv.follow hf (fun _ _ _ hx => .inr (.inr hx.2.2.1)) hnamed fun c' d' hp => ?_
      have hbefore : Pushing v.server c' d' :=
        (hf.pushing hp).resolve_right fun ⟨_, hx, _⟩ => hr hx.2.2.2
      rw [View.rooms_withServer, View.rooms_eraseRoom, if_neg]
      · exact hv.room c' d' hbefore
      · exact Ne.symm (hguard (by simp [hs]) (fun hst => hr hst.2) c' d' (hv.status.mpr hbefore))
  | started hs hr =>
      have hf := notifyStartPush_follows v.server c d env.start
      refine hv.follow hf (fun _ _ _ hx => .inr (.inr hx.2.2.1)) hnamed fun c' d' hp => ?_
      rw [View.rooms_withServer, View.rooms_assign]
      rcases hf.pushing hp with hbefore | ⟨_, ⟨rfl, rfl, -⟩, -⟩
      · exact View.isSome_setRoom (hv.room c' d' hbefore)
      · simp
  | joined room hs hr =>
      exact hv.rooms rfl hnamed fun c' d' _ hroom => View.isSome_setRoom hroom
  | unexpected hs hr => exact hv

theorem Joinable.quit (hv : Joinable v)
    (hguard : v.status c d ≠ some 200 → ∀ c' d', v.status c' d' = some 200 → c' ++ d' ≠ c ++ d)
    (h : QuitView v s c d env after)
    (hnamed : ∀ (k : String) (room : LiveRoom), after.rooms[k]? = some room →
      room.cmsid ≠ "" ∧ room.devid ≠ "") : Joinable after := by
  cases h with
  | left room hs hr => exact hv.rooms rfl hnamed fun c' d' _ hroom => View.isSome_setRoom hroom
  | noRoom hs hr => exact hv
  | notPlaying n hs hn =>
      refine hv.rooms rfl hnamed fun c' d' hp hr => ?_
      rwa [View.rooms_eraseRoom, if_neg]
      exact Ne.symm (hguard (by simpa [hs] using hn) c' d' (hv.status.mpr hp))

theorem Joinable.step {w : Service} {event : Event} {history : History} (hv : Joinable w.view)
    (hguard : keepsJoinable history w event) (h : ViewStep w.view event out after) :
    Joinable after := by
  have hnamed := h.named hv.named
  cases h with
  | established s tick => exact hv.rooms rfl hnamed fun _ _ _ hr => hr
  | writeable s whole written => exact hv
  | rejected s text env ht => exact hv.rooms rfl hnamed fun _ _ _ hr => hr
  | unknown s text env cmd c d ht hj hq hb => exact hv.rooms rfl hnamed fun _ _ _ hr => hr
  | join s text env c d ht h =>
      exact hv.join (fun hs hst => hguard c d ⟨hs, .inr ⟨ht, hst⟩⟩) h hnamed
  | quit s text env c d ht h => exact hv.quit (fun hs => hguard c d ⟨hs, .inl ht⟩) h hnamed
  | heartbeat s text env c d ht => exact hv
  | closed s tick => exact hv.rooms (by simp) hnamed fun _ _ _ hr => leave_isSome hr
  | timeouts cur tick h => exact hv.rooms h.server hnamed fun _ _ _ hr => h.isSome hr
  | sweep env h => exact hv.sweep hguard h
  | hls token replies h =>
      cases h with
      | unknown => exact hv
      | ready k room hr => exact hv.rooms rfl hnamed fun _ _ _ hroom => View.isSome_setRoom hroom
  | adapter event srv frames h =>
      have hflags : ∀ c d n, reported w.view.server event c d n → n = 0 ∨ n = 1 := by
        intro c d n hn
        cases event with
        | frame fd cmd seq buf env =>
            obtain ⟨hcmd, ⟨p, hp, -⟩, item, hitem, -, rfl⟩ := hn
            exact hguard hcmd (by simp [show w.server.findClient fd = some p from hp]) item hitem
        | _ => exact hn.elim
      have hf := adapterStep_follows h
      refine hv.follow hf (fun c d n hx => ?_) hnamed fun c d hp => ?_
      · rcases hflags c d n hx with h0 | h1
        · exact .inl h0
        · exact .inr (.inl h1)
      · refine hv.room c d ((hf.pushing hp).resolve_right ?_)
        rintro ⟨n, hx, h0, h1⟩
        rcases hflags c d n hx with hn | hn
        · exact h0 hn
        · exact h1 hn

theorem initial_joinable : Joinable initial.view := by
  refine ⟨⟨?_, ?_⟩, ?_, ?_, ?_⟩ <;> simp [initial, Service.view, Pushing]

theorem View.reply_of_answer {data data' : Reply} (frames : List Sent)
    (h : Output.reply s data ∈ frames.map .sent ++ v.answer s data') : data = data' := by
  unfold View.answer at h
  split at h <;> simp at h
  exact h

-- A join is answered 900 only for a playing camera without a room.
theorem unexpected_of_reply {text : Option Json.Value} {data : Reply}
    (ht : decodeRequest text = .fields 100 c d) (h : ViewStep v (.request s text env) out after)
    (hout : Output.reply s data ∈ out) (hcode : data.code = 900) :
    v.status c d = some 200 ∧ v.rooms[c ++ d]? = none := by
  have hjoin : ∀ rdy token count, (joinReply rdy token count).code ≠ 900 := by
    intro rdy token count
    cases rdy <;> simp [joinReply]
  cases h with
  | rejected s text env ht' => simp [ht] at ht'
  | unknown s text env cmd c d ht' hj hq hb =>
      rw [ht] at ht'
      injection ht' with hcmd
      exact absurd hcmd.symm hj
  | join s text env c' d' ht' h =>
      rw [ht] at ht'
      cases ht'
      cases h with
      | offline hs =>
          rw [View.reply_of_answer [] hout] at hcode
          exact absurd hcode (by decide)
      | failed hs hr =>
          rw [View.reply_of_answer _ hout] at hcode
          exact absurd (show (104 : Int) = 900 from hcode) (by decide)
      | started hs hr =>
          rw [View.reply_of_answer _ hout] at hcode
          exact absurd hcode (hjoin _ _ _)
      | joined room hs hr =>
          rw [View.reply_of_answer [] hout] at hcode
          exact absurd hcode (hjoin _ _ _)
      | unexpected hs hr => exact ⟨hs, hr⟩
  | quit s text env c d ht' h => simp [ht] at ht'
  | heartbeat s text env c d ht' => simp [ht] at ht'

-- In every run whose steps keep the rooms of playing cameras, every playing camera has a
-- room, and no join is answered 900.
theorem playing_has_room {history : History} {w : Service}
    (run : Run step keepsJoinable initial history w) :
    (∀ c d, AdapterServer.checkStatus w.server c d = some 200 → (w.rooms[c ++ d]?).isSome) ∧
    (∀ s text env c d after out data, decodeRequest text = .fields 100 c d →
      step w (.request s text env) = some (after, out) → Output.reply s data ∈ out →
      data.code ≠ 900) := by
  obtain ⟨hv, hk⟩ := view_invariant (fun _ v => Joinable v) initial_joinable
    (fun _ _ _ _ _ hv hguard h => hv.step hguard h) run
  have hroom : ∀ c d, AdapterServer.checkStatus w.server c d = some 200 →
      (w.rooms[c ++ d]?).isSome := fun c d hs => hv.room c d (hv.status.mp hs)
  refine ⟨hroom, ?_⟩
  intro s text env c d after out data ht hs hout hcode
  obtain ⟨hplay, hnone⟩ := unexpected_of_reply ht (step_view hk hs).1 hout hcode
  have hsome := hroom c d hplay
  rw [show w.rooms[c ++ d]? = none from hnone] at hsome
  cases hsome

-- No device pushes.
def idle (w : Service) : Bool :=
  w.server.clientlist.all fun p => p.devlist.toList.all fun x => x.2.state = 0 ∨ x.2.state = 1

-- As long as no device pushes, every request keeps the rooms of playing cameras.
theorem keepsJoinable_of_idle {history : History} {w : Service} {env : RequestEnv}
    {text : Option Json.Value} (hidle : idle w = true) :
    keepsJoinable history w (.request s text env) := by
  intro c d _ c' d' hs
  exfalso
  change AdapterServer.checkStatus w.server c' d' = some 200 at hs
  unfold AdapterServer.checkStatus at hs
  split at hs
  · cases hs
  · rename_i p hp
    obtain ⟨n, hn, h200⟩ := Option.map_eq_some_iff.mp hs
    obtain ⟨x, hx, rfl⟩ := Option.map_eq_some_iff.mp hn
    have hall := List.all_eq_true.mp hidle p (List.mem_of_find?_eq_some hp)
    have hstate := List.all_eq_true.mp hall (d', x) (by simpa using hx)
    simp only [decide_eq_true_eq] at hstate
    rcases hstate with h0 | h1
    · simp [h0] at h200
    · simp [h1] at h200

-- Requests come while no device pushes, and reports carry known states.
def startsIdle (_ : History) (w : Service) : Event → Bool
  | .request _ _ _ => idle w
  | .adapter (.frame _ cmd _ buf _) =>
      cmd ≠ UPDATE_CHANGE || (stateItems buf).all fun item => item.flag = 0 ∨ item.flag = 1
  | .established _ _ => true
  | _ => false

theorem keepsJoinable_of_startsIdle (history : History) (w : Service) (event : Event)
    (h : startsIdle history w event = true) : keepsJoinable history w event := by
  unfold startsIdle at h
  split at h
  · exact keepsJoinable_of_idle h
  · intro hcmd _ item hitem
    simp only [hcmd, ne_eq, not_true, decide_false, Bool.false_or] at h
    simpa using List.all_eq_true.mp h item hitem
  · trivial
  · cases h

-- One viewer joins a camera, and the camera plays with a room.
theorem playing_has_room_after_join :
    ∃ history w, Run step keepsJoinable initial history w ∧
      AdapterServer.checkStatus w.server "A" "d" = some 200 ∧ (w.rooms["Ad"]?).isSome := by
  obtain ⟨history, w, run, ht⟩ := exists_run_of_ends step keepsJoinable initial
    [login 7 "A" ["d"], report 7 "d" 1, .established 1 0, joinRequest 1 "A" "d" "t" 1]
    (fun _ w => AdapterServer.checkStatus w.server "A" "d" = some 200)
    (guarded_of_passes startsIdle keepsJoinable_of_startsIdle (by decide +kernel)) (by decide +kernel)
  have hs : AdapterServer.checkStatus w.server "A" "d" = some 200 := by simpa using ht
  exact ⟨history, w, run, hs, (playing_has_room run).1 "A" "d" hs⟩

-- The adapter does not answer the stop in time: the device goes on playing, its room is gone.
theorem playing_without_room :
    ¬ ∀ history w, Run step free initial history w →
      ∀ c d, AdapterServer.checkStatus w.server c d = some 200 → (w.rooms[c ++ d]?).isSome := by
  intro hall
  obtain ⟨history, w, run, ht⟩ := exists_run_of_ends step free initial
    [login 7 "A" ["d"], report 7 "d" 1, .established 1 0, joinRequest 1 "A" "d" "t" 1,
      .closed 1 2, sweepAt 60003 false]
    (fun _ w => AdapterServer.checkStatus w.server "A" "d" = some 200 &&
      w.rooms["Ad"]?.isNone)
    (guarded_free ..) (by decide +kernel)
  obtain ⟨hs, hnone⟩ := Bool.and_eq_true_iff.mp ht
  have hsome := hall history w run "A" "d" (by simpa using hs)
  simp [Option.isNone_iff_eq_none.mp hnone] at hsome

end VideoAdapter.Wss

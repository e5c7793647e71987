import VideoAdapter.Wss.View.Lemmas

namespace VideoAdapter.Wss

open Adapter Lib
open Service (RequestEnv)

-- Every socket with a room id is a user of that room.
def Present (v : View) : Prop :=
  ∀ s k, v.roomid s = some k → k ≠ "" → v.inRoom s k

-- The steps that delete no room which a socket still has as its room id. A join that
-- starts the device puts the joiner, and nobody else, into the room that takes the place
-- of the deleted one.
def keepsMembers (_ : History) (w : Service) : Event → Prop
  | .request s text env =>
      match decodeRequest text with
      | .fields cmd c d =>
          (w.rooms[c ++ d]?).isSome → w.view.status c d ≠ some 200 →
            (cmd = 100 → ∀ s', w.connections.roomid s' = some (c ++ d) →
              w.view.starts c d env ∧ s' = s) ∧
            (cmd = 200 → ∀ s', w.connections.roomid s' ≠ some (c ++ d))
      | _ => True
  | _ => True

variable {v after : View} {s : Int} {k c d : String} {env : RequestEnv} {out : List Output}

theorem View.inRoom_of_rooms {s : Int} {x : String} (h : v.inRoom s x)
    (hrooms : after.rooms[x]? = v.rooms[x]?) : after.inRoom s x := by
  obtain ⟨room, hr, hs⟩ := h
  exact ⟨room, hrooms.trans hr, hs⟩

-- A room that nobody has as its room id can go.
theorem Present.eraseRoom (hv : Present v)
    (hmembers : (v.rooms[k]?).isSome → ∀ s, v.roomid s ≠ some k) : Present (v.eraseRoom k) := by
  intro s x hx hne
  have hin := hv s x hx hne
  refine View.inRoom_of_rooms hin ?_
  rw [View.rooms_eraseRoom, if_neg]
  rintro rfl
  obtain ⟨room, hr, -⟩ := hin
  exact hmembers (by simp [hr]) s hx

theorem Present.join (hv : Present v)
    (hguard : (v.rooms[c ++ d]?).isSome → v.status c d ≠ some 200 →
      ∀ s', v.roomid s' = some (c ++ d) → v.starts c d env ∧ s' = s)
    (h : JoinView v s c d env out after) : Present after := by
  cases h with
  | offline hs =>
      refine hv.eraseRoom fun hr s' hk => ?_
      have hst := (hguard hr (by rcases hs with hs | hs <;> simp [hs]) s' hk).1.1
      rcases hs with hs | hs <;> simp [hs] at hst
  | failed hs hr =>
      refine hv.eraseRoom (k := c ++ d) fun hr' s' hk => ?_
      exact hr (hguard hr' (by simp [hs]) s' hk).1.2
  | started hs hr =>
      intro y x hx hne
      simp only [View.roomid_withServer, View.roomid_assign, View.roomid_setRoom] at hx
      have hrooms : ∀ x, c ++ d ≠ x → ((((v.setRoom (c ++ d)
          (newRoom c d (startResult v c d env).1.token s)).assign s (c ++ d)).withServer
          (startResult v c d env).2.1).rooms[x]?) = v.rooms[x]? := by
        intro x hx
        simp [hx]
      by_cases hys : y = s
      · rw [if_pos hys] at hx
        obtain ⟨_, -, rfl⟩ := Option.map_eq_some_iff.mp hx
        exact ⟨newRoom c d (startResult v c d env).1.token s, by simp, by simp [newRoom, hys]⟩
      · rw [if_neg hys] at hx
        have hin := hv y x hx hne
        refine View.inRoom_of_rooms hin (hrooms x ?_)
        rintro rfl
        obtain ⟨room, hroom, -⟩ := hin
        exact hys (hguard (by simp [hroom]) (by simp [hs]) y hx).2
  | joined room hs hr =>
      intro y x hx hne
      simp only [View.roomid_assign, View.roomid_setRoom] at hx
      by_cases hys : y = s
      · rw [if_pos hys] at hx
        obtain ⟨_, -, rfl⟩ := Option.map_eq_some_iff.mp hx
        exact ⟨room.join s, by simp, by simp [hys]⟩
      · rw [if_neg hys] at hx
        have hin := hv y x hx hne
        by_cases hk : c ++ d = x
        · subst hk
          obtain ⟨room', hr', hy⟩ := hin
          rw [hr] at hr'
          cases hr'
          exact ⟨room.join s, by simp, by simp [hy]⟩
        · exact View.inRoom_of_rooms hin (by simp [hk])
  | unexpected hs hr => exact hv

-- A socket that leaves a room and has no room id afterwards takes nobody along.
theorem Present.quitRoom (hv : Present v) {r : Option String} (hr : ∀ k, r = some k → k = "")
    (hroomid : ∀ y, after.roomid y = if y = s then r else v.roomid y)
    (hrooms : ∀ (x : String) (room : LiveRoom), v.rooms[x]? = some room →
      ∃ last : LiveRoom, after.rooms[x]? = some last ∧ ∀ y ∈ room.users, y ≠ s → y ∈ last.users) :
    Present after := by
  intro y x hx hne
  rw [hroomid] at hx
  split at hx
  · exact absurd (hr x hx) hne
  · rename_i hys
    obtain ⟨room, hroom, hy⟩ := hv y x hx hne
    obtain ⟨last, hl, hkeep⟩ := hrooms x room hroom
    exact ⟨last, hl, hkeep y hy hys⟩

theorem leave_keeps {tick : UInt64} {x : String} {room : LiveRoom} (hr : v.rooms[x]? = some room) :
    ∃ last : LiveRoom, (v.leave s k tick).rooms[x]? = some last ∧
      ∀ y ∈ room.users, y ≠ s → y ∈ last.users := by
  rw [View.rooms_leave, hr]
  split
  · exact ⟨room.quit s tick, rfl, fun y hy hne => LiveRoom.mem_quit_of_ne tick hne hy⟩
  · exact ⟨room, rfl, fun y hy _ => hy⟩

theorem Present.depart (hv : Present v) (s : Int) (k : String) (tick : UInt64) {r : Option String}
    (hr : ∀ k, r = some k → k = "") : Present ((v.leave s k tick).register s r) :=
  hv.quitRoom hr (by simp) fun _ _ hroom => leave_keeps hroom

theorem Present.quit (hv : Present v)
    (hguard : (v.rooms[c ++ d]?).isSome → v.status c d ≠ some 200 →
      ∀ s', v.roomid s' ≠ some (c ++ d))
    (h : QuitView v s c d env after) : Present after := by
  cases h with
  | left room hs hr =>
      refine hv.quitRoom (s := s) (r := (v.roomid s).map fun _ => "") ?_ (by simp) ?_
      · intro k hk
        obtain ⟨_, -, rfl⟩ := Option.map_eq_some_iff.mp hk
        rfl
      · intro x last hl
        by_cases hk : c ++ d = x
        · subst hk
          rw [hr] at hl
          cases hl
          exact ⟨room.quit s env.tick, by simp,
            fun y hy hne => LiveRoom.mem_quit_of_ne env.tick hne hy⟩
        · exact ⟨last, by simp [hk, hl], fun y hy _ => hy⟩
  | noRoom hs hr => exact hv
  | notPlaying n hs hn =>
      refine hv.eraseRoom fun hr => hguard hr ?_
      rw [hs]
      simpa using hn

theorem Present.timeouts (hv : Present v) (h : Timeouts v out after) : Present after := by
  induction h with
  | done => exact hv
  | next s k tick hk hne rest ih => exact ih (hv.depart s k tick fun k' hk' => by simpa using hk'.symm)

-- A swept room has no users, so no socket has it as its room id.
theorem Present.sweep (hv : Present v) {env : String → Service.SweepEnv}
    (h : Sweep env v out after) : Present after := by
  intro s x hx hne
  rw [h.roomid] at hx
  obtain ⟨room, hr, hs⟩ := hv s x hx hne
  cases hl : after.rooms[x]? with
  | none =>
      rw [h.empty hr hl] at hs
      cases hs
  | some last =>
      have he := h.rooms hl
      rw [hr] at he
      cases he
      exact ⟨room, hl, hs⟩

theorem Present.step {w : Service} {event : Event} {history : History} (hv : Present w.view)
    (hguard : keepsMembers history w event) (h : ViewStep w.view event out after) :
    Present after := by
  -- registering a socket anew, or removing it, leaves it without a room id
  have hregister : ∀ s r, (∀ k, r = some k → k = "") → Present (w.view.register s r) :=
    fun s r hr => hv.quitRoom (s := s) hr (by simp) fun x room hroom => ⟨room, hroom, fun y hy _ => hy⟩
  cases h with
  | established s tick => exact hregister s _ fun k hk => by simpa using hk.symm
  | writeable s whole written => exact hv
  | rejected s text env ht => exact hregister s _ fun k hk => by cases hk
  | unknown s text env cmd c d ht hj hq hb => exact hregister s _ fun k hk => by cases hk
  | join s text env c d ht h =>
      simp only [keepsMembers, ht] at hguard
      exact hv.join (fun hr hs => (hguard hr hs).1 trivial) h
  | quit s text env c d ht h =>
      simp only [keepsMembers, ht] at hguard
      exact hv.quit (fun hr hs => (hguard hr hs).2 trivial) h
  | heartbeat s text env c d ht => exact hv
  | closed s tick => exact hv.depart s _ tick fun k hk => by cases hk
  | timeouts cur tick h => exact hv.timeouts h
  | sweep env h => exact hv.sweep h
  | hls token replies h =>
      cases h with
      | unknown => exact hv
      | ready k room hr =>
          intro s x hx hne
          obtain ⟨room', hr', hs⟩ := hv s x hx hne
          by_cases hk : k = x
          · subst hk
            rw [hr] at hr'
            cases hr'
            exact ⟨{ room with rdy := true }, by simp, hs⟩
          · exact ⟨room', by simp [hk, hr'], hs⟩
  | adapter event srv frames h => exact hv

theorem initial_present : Present initial.view := by
  intro s k hk
  simp [initial, Service.view, Connections.roomid] at hk

-- A heartbeat is answered 301 to a socket with a room id only.
theorem heartbeat_alive {text : Option Json.Value} {data : Reply}
    (ht : decodeRequest text = .fields 300 c d) (h : ViewStep v (.request s text env) out after)
    (hout : Output.reply s data ∈ out) (hcode : data.code = 301) :
    ∃ k, v.roomid s = some k ∧ k ≠ "" := by
  cases h with
  | rejected s text env ht' => simp [ht] at ht'
  | unknown s text env cmd c d ht' hj hq hb =>
      rw [ht] at ht'
      injection ht' with hcmd
      exact absurd hcmd.symm hb
  | join s text env c d ht' h => simp [ht] at ht'
  | quit s text env c d ht' h => simp [ht] at ht'
  | heartbeat s text env c d ht' =>
      unfold heartbeatOutput at hout
      split at hout
      · cases hout
      · rename_i k hk
        have hd : data = heartbeatReply k := by simpa using hout
        refine ⟨k, hk, ?_⟩
        rintro rfl
        rw [hd] at hcode
        exact absurd hcode (by decide)

-- No stale membership: along every run in which no join or quit deletes a room that a
-- socket still has as its room id, every room id names a room with the socket among its
-- users, and a heartbeat is answered 301 to users only.
theorem roomid_present {history : History} {w : Service}
    (run : Run step keepsMembers initial history w) :
    (∀ s k, w.connections.roomid s = some k → k ≠ "" →
      ∃ room : LiveRoom, w.rooms[k]? = some room ∧ s ∈ room.users) ∧
    (∀ s text env c d after out data, decodeRequest text = .fields 300 c d →
      step w (.request s text env) = some (after, out) → Output.reply s data ∈ out →
      data.code = 301 →
      ∃ (k : String) (room : LiveRoom), w.rooms[k]? = some room ∧ s ∈ room.users) := by
  obtain ⟨hpresent, hkeyed⟩ := view_invariant (fun _ v => Present v) initial_present
    (fun _ _ _ _ _ hv hguard h => hv.step hguard h) run
  refine ⟨hpresent, ?_⟩
  intro s text env c d after out data ht hs hout hcode
  obtain ⟨k, hk, hne⟩ := heartbeat_alive ht (step_view hkeyed hs).1 hout hcode
  exact ⟨k, hpresent s k hk hne⟩

-- A viewer joins and sends a heartbeat.
theorem roomid_present_after_join :
    ∃ history w, Run step keepsMembers initial history w ∧ w.connections.roomid 1 = some "Ad" ∧
      (∃ room : LiveRoom, w.rooms["Ad"]? = some room ∧ 1 ∈ room.users) ∧
      ∃ after, step w (heartbeatRequest 1 2) = some (after, [.reply 1 { code := 301 }]) ∧
        ∃ (k : String) (room : LiveRoom), w.rooms[k]? = some room ∧ 1 ∈ room.users := by
  have hg : Guarded step keepsMembers initial [] [login 7 "A" ["d"], report 7 "d" 1,
      .established 1 0, joinRequest 1 "A" "d" "t" 1] := by
    refine guarded_of_passes (fun _ w _ => w.rooms.isEmpty) ?_ (by decide +kernel)
    intro history w event hc
    unfold keepsMembers
    split
    · split
      · simp [Std.ExtTreeMap.isEmpty_iff.mp hc]
      · trivial
    · trivial
  obtain ⟨history, w, run, ht⟩ := exists_run_of_ends step keepsMembers initial _
    (fun _ w => w.connections.roomid 1 = some "Ad" &&
      (step w (heartbeatRequest 1 2)).any fun x => x.2 = [.reply 1 { code := 301 }])
    hg (by decide +kernel)
  obtain ⟨hid, hbeat⟩ := Bool.and_eq_true_iff.mp ht
  obtain ⟨⟨after, out⟩, hs, hout⟩ := (Option.any_eq_true _ _).mp hbeat
  simp only [decide_eq_true_eq] at hid hout
  subst hout
  obtain ⟨hpresent, halive⟩ := roomid_present run
  refine ⟨history, w, run, hid, hpresent 1 "Ad" hid (by decide), after, hs, ?_⟩
  exact halive 1 _ _ "" "" after _ { code := 301 } (by decide) hs (by simp) rfl

-- The camera goes off line and another viewer asks for it: the room is deleted, and its
-- user keeps the room id.
theorem roomid_stale :
    ¬ ∀ history w, Run step free initial history w →
      ∀ s k, w.connections.roomid s = some k → k ≠ "" →
        ∃ room : LiveRoom, w.rooms[k]? = some room ∧ s ∈ room.users := by
  intro hall
  obtain ⟨history, w, run, ht⟩ := exists_run_of_ends step free initial
    [login 7 "A" ["d"], report 7 "d" 1, .established 1 0, .established 2 0,
      joinRequest 1 "A" "d" "t" 1, report 7 "d" 0, joinRequest 2 "A" "d" "u" 2]
    (fun _ w => w.rooms["Ad"]?.isNone && w.connections.roomid 1 = some "Ad")
    (guarded_free ..) (by decide +kernel)
  obtain ⟨hnone, hid⟩ := Bool.and_eq_true_iff.mp ht
  obtain ⟨room, hr, -⟩ := hall history w run 1 "Ad" (by simpa using hid) (by decide)
  simp [hr] at hnone

end VideoAdapter.Wss

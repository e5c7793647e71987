import VideoAdapter.Wss.View.Refinement

namespace VideoAdapter.Wss

open Adapter Lib

namespace View

variable (v : View) (s : Int) (k x : String)

@[simp] theorem rooms_setRoom (room : LiveRoom) :
    (v.setRoom k room).rooms[x]? = if k = x then some room else v.rooms[x]? := by
  simp [setRoom, Std.ExtTreeMap.getElem?_insert]

@[simp] theorem rooms_eraseRoom :
    (v.eraseRoom k).rooms[x]? = if k = x then none else v.rooms[x]? := by
  simp [eraseRoom, Std.ExtTreeMap.getElem?_erase]

@[simp] theorem rooms_assign : (v.assign s k).rooms = v.rooms := rfl

@[simp] theorem rooms_register (roomid : Option String) : (v.register s roomid).rooms = v.rooms := rfl

@[simp] theorem rooms_withServer (server : TcpServer) : (v.withServer server).rooms = v.rooms := rfl

@[simp] theorem roomid_setRoom (room : LiveRoom) : (v.setRoom k room).roomid = v.roomid := rfl

@[simp] theorem roomid_eraseRoom : (v.eraseRoom k).roomid = v.roomid := rfl

@[simp] theorem roomid_withServer (server : TcpServer) :
    (v.withServer server).roomid = v.roomid := rfl

@[simp] theorem roomid_leave (tick : UInt64) : (v.leave s k tick).roomid = v.roomid := by
  unfold leave
  split <;> rfl

@[simp] theorem roomid_assign (y : Int) :
    (v.assign s k).roomid y = if y = s then (v.roomid s).map fun _ => k else v.roomid y := by
  simp [assign, Function.update_apply]

@[simp] theorem roomid_register (roomid : Option String) (y : Int) :
    (v.register s roomid).roomid y = if y = s then roomid else v.roomid y := by
  simp [register, Function.update_apply]

@[simp] theorem server_setRoom (room : LiveRoom) : (v.setRoom k room).server = v.server := rfl

@[simp] theorem server_eraseRoom : (v.eraseRoom k).server = v.server := rfl

@[simp] theorem server_assign : (v.assign s k).server = v.server := rfl

@[simp] theorem server_register (roomid : Option String) :
    (v.register s roomid).server = v.server := rfl

@[simp] theorem server_withServer (server : TcpServer) : (v.withServer server).server = server := rfl

@[simp] theorem server_leave (tick : UInt64) : (v.leave s k tick).server = v.server := by
  unfold leave
  split <;> rfl

theorem rooms_leave (tick : UInt64) :
    (v.leave s k tick).rooms[x]? =
      if k = x ∧ k ≠ "" then v.rooms[x]?.map fun room => room.quit s tick else v.rooms[x]? := by
  unfold leave
  by_cases hk : k = ""
  · simp [hk]
  · by_cases hx : k = x
    · subst hx
      simp [hk]
    · simp [hk, hx, Std.ExtTreeMap.getElem?_modify]

end View

-- A room of the view after a step that only makes users leave: the same camera, a part of
-- the users, among them everybody in `kept`.
structure Thinned (room after : LiveRoom) (kept : Int → Prop) : Prop where
  cmsid : after.cmsid = room.cmsid
  devid : after.devid = room.devid
  sub : ∀ s ∈ after.users, s ∈ room.users
  keep : ∀ s ∈ room.users, kept s → s ∈ after.users

theorem Thinned.refl (room : LiveRoom) (kept : Int → Prop) : Thinned room room kept :=
  ⟨rfl, rfl, fun _ h => h, fun _ h _ => h⟩

theorem thinned_quit (room : LiveRoom) (s : Int) (tick : UInt64) :
    Thinned room (room.quit s tick) (· ≠ s) :=
  ⟨LiveRoom.quit_cmsid .., LiveRoom.quit_devid .., fun _ => LiveRoom.mem_of_mem_quit,
    fun _ h hne => LiveRoom.mem_quit_of_ne tick hne h⟩

theorem leave_thinned {v : View} {s : Int} {k x : String} {tick : UInt64} {after : LiveRoom}
    (h : (v.leave s k tick).rooms[x]? = some after) :
    ∃ room, v.rooms[x]? = some room ∧ Thinned room after (· ≠ s) := by
  rw [View.rooms_leave] at h
  split at h
  · obtain ⟨room, hr, rfl⟩ := Option.map_eq_some_iff.mp h
    exact ⟨room, hr, thinned_quit room s tick⟩
  · exact ⟨after, h, .refl _ _⟩

theorem Timeouts.thinned {v after : View} {out : List Output} (h : Timeouts v out after)
    {x : String} {last : LiveRoom} (hl : after.rooms[x]? = some last) :
    ∃ room, v.rooms[x]? = some room ∧
      Thinned room last fun s => ∀ k, Output.timeout s k ∉ out := by
  induction h with
  | done => exact ⟨last, hl, .refl _ _⟩
  | next s k tick hk hne rest ih =>
      obtain ⟨mid, hm, ht⟩ := ih hl
      obtain ⟨room, hr, hq⟩ := leave_thinned hm
      refine ⟨room, hr, ht.cmsid.trans hq.cmsid, ht.devid.trans hq.devid,
        fun y hy => hq.sub y (ht.sub y hy), ?_⟩
      intro y hy hkept
      have hys : y ≠ s := by
        rintro rfl
        exact hkept k List.mem_cons_self
      exact ht.keep y (hq.keep y hy hys) fun k' hk' => hkept k' (List.mem_cons_of_mem _ hk')

theorem Timeouts.server {v after : View} {out : List Output} (h : Timeouts v out after) :
    after.server = v.server := by
  induction h with
  | done => rfl
  | next s k tick hk hne rest ih => simpa using ih

theorem Timeouts.not_stopPlay {v after : View} {out : List Output} (h : Timeouts v out after)
    (c d : String) : Output.stopPlay c d ∉ out := by
  induction h with
  | done => simp
  | next s k tick hk hne rest ih => simpa using ih

-- A sweep keeps the rooms it leaves as they are.
theorem Sweep.rooms {env : String → Service.SweepEnv} {v after : View} {out : List Output}
    (h : Sweep env v out after)
    {x : String} {room : LiveRoom} (hr : after.rooms[x]? = some room) : v.rooms[x]? = some room := by
  induction h with
  | done => exact hr
  | reap k room hk hempty hdue rest ih =>
      have hm := ih hr
      rw [View.rooms_withServer, View.rooms_eraseRoom] at hm
      split at hm
      · cases hm
      · exact hm

theorem Sweep.roomid {env : String → Service.SweepEnv} {v after : View} {out : List Output}
    (h : Sweep env v out after) :
    after.roomid = v.roomid := by
  induction h with
  | done => rfl
  | reap k room hk hempty hdue rest ih => exact ih

-- Every room that a sweep takes away had no users.
theorem Sweep.empty {env : String → Service.SweepEnv} {v after : View} {out : List Output}
    (h : Sweep env v out after)
    {x : String} {room : LiveRoom} (hr : v.rooms[x]? = some room)
    (hn : after.rooms[x]? = none) : room.users = [] := by
  induction h with
  | done => simp [hr] at hn
  | @reap v after out k gone hk hempty hdue rest ih =>
      by_cases hx : k = x
      · subst hx
        rw [hk] at hr
        cases hr
        exact hempty
      · exact ih (by simp [hx, hr]) hn

-- Every `stop_play` of a sweep is for a room without users.
theorem Sweep.stopPlay {env : String → Service.SweepEnv} {v after : View} {out : List Output}
    (h : Sweep env v out after)
    {c d : String} (hs : Output.stopPlay c d ∈ out) :
    ∃ (k : String) (room : LiveRoom), v.rooms[k]? = some room ∧ room.users = [] ∧
      room.cmsid = c ∧ room.devid = d := by
  induction h with
  | done => simp at hs
  | reap k room hk hempty hdue rest ih =>
      rcases List.mem_cons.mp hs with he | hs
      · injection he with hc hd
        exact ⟨k, room, hk, hempty, hc.symm, hd.symm⟩
      · rcases List.mem_append.mp hs with hs | hs
        · simp at hs
        · obtain ⟨k', room', hr, hp⟩ := ih hs
          rw [View.rooms_withServer, View.rooms_eraseRoom] at hr
          split at hr
          · cases hr
          · exact ⟨k', room', hr, hp⟩

-- `start_play` refuses an empty id, so no room is created with one.
theorem View.starts_named {v : View} {c d : String} {env : Service.RequestEnv}
    (h : v.starts c d env) : c ≠ "" ∧ d ≠ "" := by
  by_contra hn
  have hempty : c = "" ∨ d = "" := by
    by_contra hne
    exact hn (not_or.mp hne)
  have hret := h.2
  simp [startResult, AdapterServer.notifyStartPush, hempty] at hret

theorem View.starts_key {v : View} {c d : String} {env : Service.RequestEnv}
    (h : v.starts c d env) : c ++ d ≠ "" :=
  fun he => (View.starts_named h).1 (String.append_eq_empty_iff.mp he).1

-- The same camera: what every operation keeps of a room it does not create.
def SameCamera (room last : LiveRoom) : Prop := last.cmsid = room.cmsid ∧ last.devid = room.devid

theorem View.eraseRoom_origin {v : View} {k x : String} {last : LiveRoom}
    (hl : (v.eraseRoom k).rooms[x]? = some last) : v.rooms[x]? = some last := by
  rw [View.rooms_eraseRoom] at hl
  split at hl
  · cases hl
  · exact hl

-- A room that is written back under its key.
theorem View.setRoom_origin {v : View} {k x : String} {room last : LiveRoom} (next : LiveRoom)
    (hr : v.rooms[k]? = some room) (hc : SameCamera room next)
    (hl : (v.setRoom k next).rooms[x]? = some last) :
    ∃ room, v.rooms[x]? = some room ∧ SameCamera room last := by
  rw [View.rooms_setRoom] at hl
  split at hl
  · rename_i hx
    cases hl
    exact ⟨room, hx ▸ hr, hc⟩
  · exact ⟨last, hl, rfl, rfl⟩

-- Every room after a step was there before, or a join has just created it.
theorem ViewStep.origin {v after : View} {event : Event} {out : List Output}
    (h : ViewStep v event out after) {x : String} {last : LiveRoom}
    (hl : after.rooms[x]? = some last) :
    (∃ room, v.rooms[x]? = some room ∧ SameCamera room last) ∨
      ∃ s text env, event = .request s text env ∧
        decodeRequest text = .fields 100 last.cmsid last.devid ∧
        v.starts last.cmsid last.devid env ∧ last.cmsid ++ last.devid = x := by
  have same : v.rooms[x]? = some last → ∃ room, v.rooms[x]? = some room ∧ SameCamera room last :=
    fun hl => ⟨last, hl, rfl, rfl⟩
  cases h with
  | established s tick => exact .inl (same hl)
  | writeable s whole written => exact .inl (same hl)
  | rejected s text env ht => exact .inl (same hl)
  | unknown s text env cmd c d ht hj hq hb => exact .inl (same hl)
  | join s text env c d ht h =>
      cases h with
      | offline hs => exact .inl (same (View.eraseRoom_origin hl))
      | failed hs hr => exact .inl (same (View.eraseRoom_origin hl))
      | started hs hr =>
          simp only [View.rooms_withServer, View.rooms_assign, View.rooms_setRoom] at hl
          split at hl
          · rename_i hx
            cases hl
            exact .inr ⟨s, text, env, rfl, ht, ⟨hs, hr⟩, hx⟩
          · exact .inl (same hl)
      | joined room hs hr => exact .inl (View.setRoom_origin _ hr (by simp [SameCamera]) hl)
      | unexpected hs hr => exact .inl (same hl)
  | quit s text env c d ht h =>
      cases h with
      | left room hs hr => exact .inl (View.setRoom_origin _ hr (by simp [SameCamera]) hl)
      | noRoom hs hr => exact .inl (same hl)
      | notPlaying n hs hn => exact .inl (same (View.eraseRoom_origin hl))
  | heartbeat s text env c d ht => exact .inl (same hl)
  | closed s tick =>
      obtain ⟨room, hr, ht⟩ := leave_thinned hl
      exact .inl ⟨room, hr, ht.cmsid, ht.devid⟩
  | timeouts cur tick h =>
      obtain ⟨room, hr, ht⟩ := h.thinned hl
      exact .inl ⟨room, hr, ht.cmsid, ht.devid⟩
  | sweep env h => exact .inl (same (h.rooms hl))
  | hls token replies h =>
      cases h with
      | unknown => exact .inl (same hl)
      | ready k room hr =>
          exact .inl (View.setRoom_origin { room with rdy := true } hr ⟨rfl, rfl⟩ hl)
  | adapter event srv frames h => exact .inl (same hl)

-- A room is stored under the id of its own camera.
def RoomKeyed (v : View) : Prop :=
  ∀ (k : String) (room : LiveRoom), v.rooms[k]? = some room → room.cmsid ++ room.devid = k

theorem ViewStep.roomKeyed {v after : View} {event : Event} {out : List Output}
    (hv : RoomKeyed v) (h : ViewStep v event out after) : RoomKeyed after := by
  intro k last hl
  rcases h.origin hl with ⟨room, hr, hc, hd⟩ | ⟨s, text, env, -, -, -, hk⟩
  · rw [hc, hd]
    exact hv k room hr
  · exact hk

theorem initial_roomKeyed : RoomKeyed initial.view := by
  intro k room hr
  simp [initial, Service.view] at hr

end VideoAdapter.Wss

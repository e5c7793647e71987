import VideoAdapter.Wss.View.Lemmas

namespace VideoAdapter.Wss

open Adapter Lib
open Service (RequestEnv)

-- Every user of a room is a registered socket with the key of the room as its room id.
-- The other two facts make a quit take the socket out, and let every room be left.
structure Linked (v : View) : Prop where
  roomid : ∀ (k : String) (room : LiveRoom), v.rooms[k]? = some room →
    ∀ s ∈ room.users, v.roomid s = some k
  nodup : ∀ (k : String) (room : LiveRoom), v.rooms[k]? = some room → room.users.Nodup
  named : v.rooms[""]? = none

-- The steps that keep the two records of a membership together. A socket that joins is
-- registered and in no other room, a socket that quits is in no other room, and a socket
-- whose connection is replaced or removed is in no room at all.
def keepsLinks (_ : History) (w : Service) : Event → Prop
  | .established s _ => ∀ k, ¬ w.view.inRoom s k
  | .request s text env =>
      match decodeRequest text with
      | .abort => True
      | .reject => ∀ k, ¬ w.view.inRoom s k
      | .fields cmd c d =>
          if cmd = 100 then
            w.view.starts c d env ∨ w.view.finds c d →
              w.connections.registered s ∧ ∀ k, w.view.inRoom s k → k = c ++ d
          else if cmd = 200 then w.view.finds c d → ∀ k, w.view.inRoom s k → k = c ++ d
          else cmd = 300 ∨ ∀ k, ¬ w.view.inRoom s k
  | _ => True

variable {v after : View} {s : Int} {k c d : String} {env : RequestEnv} {out : List Output}

theorem Linked.eraseRoom (hv : Linked v) (k : String) : Linked (v.eraseRoom k) := by
  have hold : ∀ (x : String) (room : LiveRoom), (v.eraseRoom k).rooms[x]? = some room →
      v.rooms[x]? = some room := by
    intro x room hr
    rw [View.rooms_eraseRoom] at hr
    split at hr
    · cases hr
    · exact hr
  refine ⟨fun x room hr => hv.roomid x room (hold x room hr),
    fun x room hr => hv.nodup x room (hold x room hr), ?_⟩
  simp [hv.named]

theorem Linked.setRoom (hv : Linked v) {room : LiveRoom} (hk : k ≠ "") (hnodup : room.users.Nodup)
    (husers : ∀ s ∈ room.users, v.roomid s = some k) : Linked (v.setRoom k room) := by
  refine ⟨?_, ?_, by simp [hk, hv.named]⟩
  · intro x r hr
    rw [View.rooms_setRoom] at hr
    split at hr
    · rename_i hx
      cases hr
      exact hx ▸ husers
    · exact hv.roomid x r hr
  · intro x r hr
    rw [View.rooms_setRoom] at hr
    split at hr
    · cases hr
      exact hnodup
    · exact hv.nodup x r hr

-- The room id of a socket may change when the socket is in no room but the new one.
theorem Linked.register (hv : Linked v) {r : Option String}
    (hin : ∀ k, v.inRoom s k → r = some k) : Linked (v.register s r) := by
  refine ⟨?_, hv.nodup, hv.named⟩
  intro x room hr y hy
  rw [View.roomid_register]
  split
  · rename_i hys
    subst hys
    exact hin x ⟨room, hr, hy⟩
  · exact hv.roomid x room hr y hy

theorem View.assign_eq_register (v : View) (s : Int) (k : String) :
    v.assign s k = v.register s ((v.roomid s).map fun _ => k) := rfl

-- A socket that leaves the room it is registered for is in no room any more.
theorem Linked.depart (hv : Linked v) (s : Int) (tick : UInt64) (r : Option String) :
    Linked ((v.leave s ((v.roomid s).getD "") tick).register s r) := by
  have hleft : Linked (v.leave s ((v.roomid s).getD "") tick) := by
    refine ⟨?_, ?_, ?_⟩
    · intro x last hl y hy
      obtain ⟨room, hr, ht⟩ := leave_thinned hl
      simpa using hv.roomid x room hr y (ht.sub y hy)
    · intro x last hl
      rw [View.rooms_leave] at hl
      split at hl
      · obtain ⟨room, hr, rfl⟩ := Option.map_eq_some_iff.mp hl
        exact LiveRoom.nodup_quit s tick (hv.nodup x room hr)
      · exact hv.nodup x last hl
    · rw [View.rooms_leave]
      split <;> simp [hv.named]
  refine hleft.register ?_
  rintro x ⟨last, hl, hs⟩
  exfalso
  have hx : v.roomid s = some x := by simpa using hleft.roomid x last hl s hs
  have hne : x ≠ "" := by
    rintro rfl
    rw [hleft.named] at hl
    cases hl
  rw [View.rooms_leave, hx, if_pos ⟨rfl, hne⟩] at hl
  obtain ⟨room, hr, rfl⟩ := Option.map_eq_some_iff.mp hl
  exact LiveRoom.not_mem_quit_self s tick (hv.nodup x room hr) hs

theorem Linked.timeouts (hv : Linked v) (h : Timeouts v out after) : Linked after := by
  induction h with
  | done => exact hv
  | next s k tick hk hne rest ih =>
      refine ih ?_
      have hd := hv.depart s tick (some "")
      rwa [hk] at hd

theorem Linked.sweep (hv : Linked v) {env : String → Service.SweepEnv}
    (h : Sweep env v out after) : Linked after := by
  refine ⟨?_, fun x room hr => hv.nodup x room (h.rooms hr), ?_⟩
  · intro x room hr y hy
    rw [h.roomid]
    exact hv.roomid x room (h.rooms hr) y hy
  · cases hn : after.rooms[""]? with
    | none => rfl
    | some room =>
        have hr := h.rooms hn
        rw [hv.named] at hr
        cases hr

-- The socket gets the room id first; the order of the two writes makes no difference.
theorem Linked.enter (hv : Linked v) (room : LiveRoom) (hk : k ≠ "") (hreg : (v.roomid s).isSome)
    (hin : ∀ x, v.inRoom s x → x = k) (hnodup : room.users.Nodup)
    (husers : ∀ y ∈ room.users, y = s ∨ v.roomid y = some k) :
    Linked ((v.setRoom k room).assign s k) := by
  obtain ⟨r, hr⟩ := Option.isSome_iff_exists.mp hreg
  have hassign : Linked (v.assign s k) := by
    rw [View.assign_eq_register]
    refine hv.register fun x hx => ?_
    rw [hin x hx, hr]
    rfl
  show Linked ((v.assign s k).setRoom k room)
  refine hassign.setRoom hk hnodup ?_
  intro y hy
  rw [View.roomid_assign]
  split
  · simp [hr]
  · rename_i hne
    exact (husers y hy).resolve_left hne

theorem Linked.join (hv : Linked v)
    (hguard : v.starts c d env ∨ v.finds c d →
      (v.roomid s).isSome ∧ ∀ k, v.inRoom s k → k = c ++ d)
    (h : JoinView v s c d env out after) : Linked after := by
  cases h with
  | offline hs => exact hv.eraseRoom _
  | failed hs hr =>
      have he := hv.eraseRoom (c ++ d)
      exact ⟨he.roomid, he.nodup, he.named⟩
  | started hs hr =>
      obtain ⟨hreg, hin⟩ := hguard (.inl ⟨hs, hr⟩)
      have he := hv.enter (newRoom c d (startResult v c d env).1.token s)
        (View.starts_key ⟨hs, hr⟩) hreg hin (by simp [newRoom]) (by simp [newRoom])
      exact ⟨he.roomid, he.nodup, he.named⟩
  | joined room hs hr =>
      obtain ⟨hreg, hin⟩ := hguard (.inr ⟨hs, by simp [hr]⟩)
      refine hv.enter _ ?_ hreg hin (LiveRoom.nodup_join s (hv.nodup _ room hr)) ?_
      · intro he
        rw [he, hv.named] at hr
        cases hr
      · intro y hy
        rw [LiveRoom.mem_join] at hy
        exact hy.symm.imp id (hv.roomid _ room hr y)
  | unexpected hs hr => exact hv

theorem Linked.quit (hv : Linked v)
    (hguard : v.finds c d → ∀ k, v.inRoom s k → k = c ++ d)
    (h : QuitView v s c d env after) : Linked after := by
  cases h with
  | left room hs hr =>
      have hin := hguard ⟨hs, by simp [hr]⟩
      have hk : c ++ d ≠ "" := by
        intro he
        rw [he, hv.named] at hr
        cases hr
      have hnodup := hv.nodup _ room hr
      have hset : Linked (v.setRoom (c ++ d) (room.quit s env.tick)) :=
        hv.setRoom hk (LiveRoom.nodup_quit s env.tick hnodup)
          fun y hy => hv.roomid _ room hr y (LiveRoom.mem_of_mem_quit hy)
      rw [View.assign_eq_register]
      refine hset.register ?_
      rintro x ⟨last, hl, hs'⟩
      exfalso
      rw [View.rooms_setRoom] at hl
      split at hl
      · cases hl
        exact LiveRoom.not_mem_quit_self s env.tick hnodup hs'
      · rename_i hne
        exact hne (hin x ⟨last, hl, hs'⟩).symm
  | noRoom hs hr => exact hv
  | notPlaying n hs hn => exact hv.eraseRoom _

theorem Linked.step {w : Service} {event : Event} {history : History} (hv : Linked w.view)
    (hguard : keepsLinks history w event) (h : ViewStep w.view event out after) :
    Linked after := by
  cases h with
  | established s tick => exact hv.register fun k hin => absurd hin (hguard k)
  | writeable s whole written => exact hv
  | rejected s text env ht =>
      simp only [keepsLinks, ht] at hguard
      exact hv.register fun k hin => absurd hin (hguard k)
  | unknown s text env cmd c d ht hj hq hb =>
      simp only [keepsLinks, ht, hj, hq, hb, if_false, false_or] at hguard
      exact hv.register fun k hin => absurd hin (hguard k)
  | join s text env c d ht h =>
      simp only [keepsLinks, ht, if_true, Connections.registered_eq] at hguard
      exact hv.join hguard h
  | quit s text env c d ht h =>
      simp [keepsLinks, ht] at hguard
      exact hv.quit hguard h
  | heartbeat s text env c d ht => exact hv
  | closed s tick => exact hv.depart s tick none
  | timeouts cur tick h => exact hv.timeouts h
  | sweep env h => exact hv.sweep h
  | hls token replies h =>
      cases h with
      | unknown => exact hv
      | ready k room hr =>
          refine hv.setRoom ?_ (hv.nodup k room hr) (hv.roomid k room hr)
          rintro rfl
          rw [hv.named] at hr
          cases hr
  | adapter event srv frames h => exact ⟨hv.roomid, hv.nodup, hv.named⟩

theorem initial_linked : Linked initial.view := by
  refine ⟨?_, ?_, ?_⟩ <;> simp [initial, Service.view]

theorem linked_of_run {history : History} {w : Service}
    (run : Run step keepsLinks initial history w) : Linked w.view ∧ w.Keyed :=
  view_invariant (fun _ v => Linked v) initial_linked
    (fun _ _ _ _ _ hv hguard h => hv.step hguard h) run

-- A registered socket can close, and leaves the room of its room id.
theorem step_closed {w : Service} (hk : w.Keyed) (hr : w.view.roomid s = some k) (tick : UInt64) :
    ∃ last, Wss.step w (.closed s tick) = some (last, []) ∧
      last.view = (w.view.leave s k tick).register s none := by
  have hg : ∃ r, w.connections.getValue s "roomid" = some r := by
    change w.connections.roomid s = some k at hr
    unfold Connections.roomid at hr
    split at hr
    · rename_i c hc
      exact ⟨c.value "roomid", by simp [Connections.getValue, hc]⟩
    · cases hr
  obtain ⟨r, hg⟩ := hg
  have hd : w.onDisconnectWrapper s tick = some ((w.quitRoom s r tick).removeConnection s) := by
    simp [Service.onDisconnectWrapper, hg]
  refine ⟨_, by simp only [Wss.step, hd]; rfl, ?_⟩
  rw [(Service.onDisconnectWrapper_view hk hd).1, hr]
  rfl

-- The users of a room close one after another until nobody is left in it.
theorem exists_emptied {history : History} {w : Service} {room : LiveRoom} (tick : UInt64)
    (run : Run step keepsLinks initial history w) (hr : w.rooms[k]? = some room) :
    ∃ later final, ∃ last : LiveRoom, Run step keepsLinks initial (later ++ history) final ∧
      (∀ entry ∈ later, ∃ s ∈ room.users, entry.1 = .closed s tick) ∧
      final.rooms[k]? = some last ∧ last.users = [] := by
  induction hu : room.users generalizing history w room with
  | nil => exact ⟨[], w, room, run, by simp, hr, hu⟩
  | cons s rest ih =>
      obtain ⟨hlinked, hkeyed⟩ := linked_of_run run
      have hid : w.view.roomid s = some k := hlinked.roomid k room hr s (by simp [hu])
      have hne : k ≠ "" := by
        rintro rfl
        have hn := hlinked.named
        rw [show w.view.rooms[""]? = some room from hr] at hn
        cases hn
      obtain ⟨mid, hs, hview⟩ := step_closed hkeyed hid tick
      have hmid : mid.view.rooms[k]? = some (room.quit s tick) := by
        rw [hview, View.rooms_register, View.rooms_leave, if_pos ⟨rfl, hne⟩]
        rw [show w.view.rooms[k]? = some room from hr]
        rfl
      have hrest : (room.quit s tick).users = rest := by
        rw [LiveRoom.quit_users, hu, List.erase_cons_head]
      have hguard : keepsLinks history w (.closed s tick) := trivial
      obtain ⟨later, final, last, hrun, hlater, hl⟩ := ih (run.next hguard hs) hmid hrest
      refine ⟨later ++ [(.closed s tick, [])], final, last, by simpa using hrun, ?_, hl⟩
      intro entry he
      rcases List.mem_append.mp he with he | he
      · obtain ⟨y, hy, heq⟩ := hlater entry he
        exact ⟨y, List.mem_cons_of_mem _ hy, heq⟩
      · exact ⟨s, List.mem_cons_self, by simp [List.mem_singleton.mp he]⟩

-- No ghosts: along every run whose steps keep the two records together, every user of a
-- room is a registered socket of that room, hence is in no other room, and closing its
-- users empties the room.
theorem users_registered {history : History} {w : Service}
    (run : Run step keepsLinks initial history w) :
    (∀ (k : String) (room : LiveRoom), w.rooms[k]? = some room →
      ∀ s ∈ room.users, w.connections.roomid s = some k) ∧
    (∀ s k k', w.view.inRoom s k → w.view.inRoom s k' → k = k') ∧
    (∀ (k : String) (room : LiveRoom) (tick : UInt64), w.rooms[k]? = some room →
      ∃ later final, ∃ last : LiveRoom, Run step keepsLinks initial (later ++ history) final ∧
        (∀ entry ∈ later, ∃ s ∈ room.users, entry.1 = .closed s tick) ∧
        final.rooms[k]? = some last ∧ last.users = []) := by
  have hlinked := (linked_of_run run).1
  refine ⟨hlinked.roomid, ?_, fun k room tick hr => exists_emptied tick run hr⟩
  rintro s k k' ⟨room, hr, hs⟩ ⟨room', hr', hs'⟩
  have hid := hlinked.roomid k room hr s hs
  rw [hlinked.roomid k' room' hr' s hs'] at hid
  exact (Option.some.inj hid).symm

-- Without rooms, every request of a registered socket keeps the records together.
theorem keepsLinks_of_no_rooms {history : History} {w : Service} {event : Event}
    (hrooms : w.rooms = ∅)
    (hreg : ∀ s text env, event = .request s text env → w.connections.registered s = true) :
    keepsLinks history w event := by
  have hout : ∀ s k, ¬ w.view.inRoom s k := by
    rintro s k ⟨room, hr, -⟩
    simp [Service.view, hrooms] at hr
  unfold keepsLinks
  split
  · exact hout _
  · rename_i s text env
    split
    · trivial
    · exact hout s
    · simp [hreg s text env rfl, hout]
  · trivial

-- There are no rooms, and requests come from registered sockets.
def startsEmpty (_ : History) (w : Service) (event : Event) : Bool :=
  w.rooms.isEmpty &&
    match event with
    | .request s _ _ => w.connections.registered s
    | _ => true

theorem keepsLinks_of_startsEmpty (history : History) (w : Service) (event : Event)
    (h : startsEmpty history w event = true) : keepsLinks history w event := by
  simp only [startsEmpty, Bool.and_eq_true, Std.ExtTreeMap.isEmpty_iff] at h
  refine keepsLinks_of_no_rooms h.1 ?_
  rintro s text env rfl
  exact h.2

-- One viewer joins a camera: the joiner is registered and in no room before.
theorem users_registered_after_join :
    ∃ history w, Run step keepsLinks initial history w ∧
      ∃ room : LiveRoom, w.rooms["Ad"]? = some room ∧ room.users = [1] ∧
        w.connections.roomid 1 = some "Ad" := by
  obtain ⟨history, w, run, ht⟩ := exists_run_of_ends step keepsLinks initial
    [login 7 "A" ["d"], report 7 "d" 1, .established 1 0, joinRequest 1 "A" "d" "t" 1]
    (fun _ w => w.rooms["Ad"]?.any (·.users = [1]))
    (guarded_of_passes startsEmpty keepsLinks_of_startsEmpty (by decide +kernel)) (by decide +kernel)
  obtain ⟨room, hr, hu⟩ := (Option.any_eq_true _ _).mp ht
  have hu : room.users = [1] := by simpa using hu
  exact ⟨history, w, run, room, hr, hu, (users_registered run).1 "Ad" room hr 1 (by simp [hu])⟩

-- A second join leaves the socket in its first room.
theorem users_not_registered :
    ¬ ∀ history w, Run step free initial history w →
      ∀ (k : String) (room : LiveRoom), w.rooms[k]? = some room →
        ∀ s ∈ room.users, w.connections.roomid s = some k := by
  intro hall
  obtain ⟨history, w, run, ht⟩ := exists_run_of_ends step free initial
    [login 7 "A" ["d", "e"], report 7 "d" 1, report 7 "e" 1, .established 1 0,
      joinRequest 1 "A" "d" "t" 1, joinRequest 1 "A" "e" "u" 2]
    (fun _ w => w.rooms["Ad"]?.any (1 ∈ ·.users) && w.connections.roomid 1 = some "Ae")
    (guarded_free ..) (by decide +kernel)
  obtain ⟨hany, hid⟩ := Bool.and_eq_true_iff.mp ht
  obtain ⟨room, hr, hs⟩ := (Option.any_eq_true _ _).mp hany
  have hbad := hall history w run "Ad" room hr 1 (by simpa using hs)
  simp [hbad] at hid

end VideoAdapter.Wss

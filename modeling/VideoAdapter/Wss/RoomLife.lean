import VideoAdapter.Wss.View.Lemmas

namespace VideoAdapter.Wss

open Adapter Lib
open Service (RequestEnv SweepEnv)

-- The sockets that time out of a room in one pass, in the order of the pass.
def timeoutsOf (k : String) (out : List Output) : List Int :=
  out.filterMap fun
    | .timeout s k' => if k' = k then some s else none
    | _ => none

-- The tick of the last quit of a room's user in one operation.
def quitTick (users : List Int) (k : String) : Event → List Output → Option UInt64
  | .request _ _ env, _ => some env.tick
  | .closed _ tick, _ => some tick
  | .checkConnectionState _ tick, out =>
      (((timeoutsOf k out).filter (· ∈ users)).getLast?).map tick
  | _, _ => none

-- Room `k` has been without users since the quit at tick `t` that emptied it.
inductive EmptySince (k : String) (t : UInt64) : History → Service → Prop
  | quit {history : History} {before after : Service} {event : Event} {out : List Output}
      {room last : LiveRoom} (run : Run step free initial history before)
      (hroom : before.rooms[k]? = some room) (husers : room.users ≠ [])
      (hs : step before event = some (after, out)) (hlast : after.rooms[k]? = some last)
      (hempty : last.users = []) (htick : quitTick room.users k event out = some t) :
      EmptySince k t ((event, out) :: history) after
  | still {history : History} {before after : Service} {event : Event} {out : List Output}
      {last : LiveRoom} (since : EmptySince k t history before)
      (hs : step before event = some (after, out)) (hlast : after.rooms[k]? = some last)
      (hempty : last.users = []) : EmptySince k t ((event, out) :: history) after

-- The two rules of the time stamp that one room can keep on its own.
structure LiveRoom.Timed (room : LiveRoom) : Prop where
  nodup : room.users.Nodup
  occupied : room.users ≠ [] → room.timestamp = 0

-- Where a room without users comes from in one operation: it was empty before, or the
-- last of its users quit.
def Emptied (v : View) (k : String) (event : Event) (out : List Output) (last : LiveRoom) : Prop :=
  ∃ room : LiveRoom, v.rooms[k]? = some room ∧
    (room.users = [] ∧ last.timestamp = room.timestamp ∨
      room.users ≠ [] ∧ quitTick room.users k event out = some last.timestamp)

namespace LiveRoom

variable {room : LiveRoom}

theorem Timed.join (h : room.Timed) (fd : Int) : (room.join fd).Timed := by
  refine ⟨nodup_join fd h.nodup, fun _ => ?_⟩
  unfold LiveRoom.join
  split
  · rename_i hm
    exact h.occupied (List.ne_nil_of_mem hm)
  · rfl

theorem join_users_ne_nil (room : LiveRoom) (fd : Int) : (room.join fd).users ≠ [] :=
  List.ne_nil_of_mem ((mem_join room fd fd).mpr (.inr rfl))

-- What a quit leaves: the stamp of a room with users, or that of one that was empty
-- before, or the tick of the quit that emptied it.
theorem quit_timestamp (room : LiveRoom) (fd : Int) (tick : UInt64) :
    (room.quit fd tick).timestamp =
      if fd ∈ room.users ∧ (room.quit fd tick).users = [] then tick else room.timestamp := by
  unfold LiveRoom.quit
  by_cases hm : fd ∈ room.users
  · simp only [hm, if_true, true_and, Nat.lt_one_iff, List.length_eq_zero_iff]
  · simp only [hm, if_false, false_and]

theorem Timed.quit (h : room.Timed) (fd : Int) (tick : UInt64) : (room.quit fd tick).Timed := by
  refine ⟨nodup_quit fd tick h.nodup, fun hne => ?_⟩
  rw [quit_timestamp, if_neg fun hq => hne hq.2]
  refine h.occupied fun he => hne ?_
  rw [quit_users, he]
  rfl

end LiveRoom

-- Every room of the view keeps the two rules.
def RoomsTimed (v : View) : Prop :=
  ∀ (k : String) (room : LiveRoom), v.rooms[k]? = some room → room.Timed

variable {v after : View} {out : List Output} {event : Event} {k : String} {last : LiveRoom}

-- A room as the step lemmas see it after an operation.
def Lives (v : View) (k : String) (event : Event) (out : List Output) (last : LiveRoom) : Prop :=
  last.Timed ∧ (last.users = [] → Emptied v k event out last)

-- The operation does not touch the users and the stamp.
theorem lives_kept (hv : RoomsTimed v) {room : LiveRoom} (hr : v.rooms[k]? = some room)
    (husers : last.users = room.users) (hstamp : last.timestamp = room.timestamp) :
    Lives v k event out last := by
  have ht := hv k room hr
  refine ⟨⟨husers ▸ ht.nodup, fun hne => ?_⟩, fun he => ⟨room, hr, .inl ⟨?_, hstamp⟩⟩⟩
  · rw [hstamp]
    exact ht.occupied (husers ▸ hne)
  · rw [← husers]
    exact he

-- One quit that reads `tick`.
theorem lives_quit (hv : RoomsTimed v) {room : LiveRoom} (hr : v.rooms[k]? = some room) (s : Int)
    (tick : UInt64) (htick : quitTick room.users k event out = some tick) :
    Lives v k event out (room.quit s tick) := by
  refine ⟨(hv k room hr).quit s tick, fun he => ⟨room, hr, ?_⟩⟩
  rw [LiveRoom.quit_timestamp]
  by_cases hm : s ∈ room.users
  · rw [if_pos ⟨hm, he⟩]
    exact .inr ⟨List.ne_nil_of_mem hm, htick⟩
  · rw [if_neg fun hq => hm hq.1]
    rw [LiveRoom.quit_users, List.erase_of_not_mem hm] at he
    exact .inl ⟨he, rfl⟩

theorem lives_join (hv : RoomsTimed v) {room : LiveRoom} (hr : v.rooms[k]? = some room) (s : Int) :
    Lives v k event out (room.join s) :=
  ⟨(hv k room hr).join s, fun he => absurd he (room.join_users_ne_nil s)⟩

theorem lives_newRoom (c d token : String) (s : Int) : Lives v k event out (newRoom c d token s) := by
  refine ⟨⟨by simp [newRoom], fun _ => rfl⟩, fun he => ?_⟩
  simp [newRoom] at he

theorem JoinView.lives {s : Int} {c d : String} {env : RequestEnv} (hv : RoomsTimed v)
    (h : JoinView v s c d env out after) (hl : after.rooms[k]? = some last) :
    Lives v k event out last := by
  have hkept : v.rooms[k]? = some last → Lives v k event out last :=
    fun hr => lives_kept hv hr rfl rfl
  cases h with
  | offline hs =>
      rw [View.rooms_eraseRoom] at hl
      split at hl
      · cases hl
      · exact hkept hl
  | failed hs hr =>
      rw [View.rooms_withServer, View.rooms_eraseRoom] at hl
      split at hl
      · cases hl
      · exact hkept hl
  | started hs hr =>
      simp only [View.rooms_withServer, View.rooms_assign, View.rooms_setRoom] at hl
      split at hl
      · cases hl
        exact lives_newRoom ..
      · exact hkept hl
  | joined room hs hr =>
      simp only [View.rooms_assign, View.rooms_setRoom] at hl
      split at hl
      · rename_i hk
        cases hl
        exact lives_join hv (hk ▸ hr) s
      · exact hkept hl
  | unexpected hs hr => exact hkept hl

theorem QuitView.lives {s : Int} {c d : String} {env : RequestEnv} (hv : RoomsTimed v)
    (h : QuitView v s c d env after) (text : Option Json.Value) (hl : after.rooms[k]? = some last) :
    Lives v k (.request s text env) out last := by
  have hkept : v.rooms[k]? = some last → Lives v k (.request s text env) out last :=
    fun hr => lives_kept hv hr rfl rfl
  cases h with
  | left room hs hr =>
      simp only [View.rooms_assign, View.rooms_setRoom] at hl
      split at hl
      · rename_i hk
        cases hl
        exact lives_quit hv (hk ▸ hr) s env.tick rfl
      · exact hkept hl
  | noRoom hs hr => exact hkept hl
  | notPlaying n hs hn =>
      rw [View.rooms_eraseRoom] at hl
      split at hl
      · cases hl
      · exact hkept hl

-- A socket without a room does not time out.
theorem Expiries.not_timeout {tick : Int → UInt64} {s : Int} (h : Expiries tick v out after)
    (hs : v.roomid s = some "") (k : String) : Output.timeout s k ∉ out := by
  induction h with
  | done => simp
  | next s' k' hk hne rest ih =>
      have hss : s ≠ s' := by
        rintro rfl
        rw [hk] at hs
        exact hne (Option.some.inj hs)
      have hrest := ih (by simp [hss, hs])
      intro hm
      rcases List.mem_cons.mp hm with he | hm
      · injection he with he
        exact hss he
      · exact hrest hm

theorem timeout_of_mem_timeoutsOf {s : Int} (h : s ∈ timeoutsOf k out) :
    Output.timeout s k ∈ out := by
  obtain ⟨o, ho, he⟩ := List.mem_filterMap.mp h
  split at he
  · rename_i s' k'
    split at he
    · rename_i hk
      cases he
      exact hk ▸ ho
    · cases he
  · cases he

theorem timeoutsOf_cons_self (s : Int) (k : String) (out : List Output) :
    timeoutsOf k (.timeout s k :: out) = s :: timeoutsOf k out := by
  simp [timeoutsOf]

theorem timeoutsOf_cons_of_ne {k' : String} (s : Int) (hne : k' ≠ k) (out : List Output) :
    timeoutsOf k (.timeout s k' :: out) = timeoutsOf k out := by
  simp [timeoutsOf, hne]

theorem RoomsTimed.leave (hv : RoomsTimed v) (s : Int) (k : String) (tick : UInt64) :
    RoomsTimed (v.leave s k tick) := by
  intro x last hl
  rw [View.rooms_leave] at hl
  split at hl
  · obtain ⟨room, hr, rfl⟩ := Option.map_eq_some_iff.mp hl
    exact (hv x room hr).quit s tick
  · exact hv x last hl

-- The first timeout of a pass is that of `s` from room `k`. The other timeouts of the pass
-- are of other sockets, so the users that `s` leaves behind decide who is the last.
theorem emptied_cons {tick : Int → UInt64} {cur : UInt64} {s : Int} {room : LiveRoom}
    (hr : v.rooms[k]? = some room) (hother : s ∉ timeoutsOf k out)
    (h : (room.quit s (tick s)).users = [] ∧
          last.timestamp = (room.quit s (tick s)).timestamp ∨
        (room.quit s (tick s)).users ≠ [] ∧
          quitTick (room.quit s (tick s)).users k (.checkConnectionState cur tick) out =
            some last.timestamp) :
    Emptied v k (.checkConnectionState cur tick) (.timeout s k :: out) last := by
  have hsame : (timeoutsOf k out).filter (· ∈ (room.quit s (tick s)).users) =
      (timeoutsOf k out).filter (· ∈ room.users) := by
    refine List.filter_congr fun u hu => decide_eq_decide.mpr ?_
    have hne : u ≠ s := by
      rintro rfl
      exact hother hu
    rw [LiveRoom.quit_users]
    exact List.mem_erase_of_ne hne
  refine ⟨room, hr, ?_⟩
  rcases h with ⟨hempty, hstamp⟩ | ⟨hne, htick⟩
  · by_cases hm : s ∈ room.users
    · refine .inr ⟨List.ne_nil_of_mem hm, ?_⟩
      rw [hempty] at hsame
      rw [LiveRoom.quit_timestamp, if_pos ⟨hm, hempty⟩] at hstamp
      simp [quitTick, timeoutsOf_cons_self, hm, ← hsame, hstamp]
    · rw [LiveRoom.quit_timestamp, if_neg fun hq => hm hq.1] at hstamp
      rw [LiveRoom.quit_users, List.erase_of_not_mem hm] at hempty
      exact .inl ⟨hempty, hstamp⟩
  · simp only [quitTick, hsame] at htick
    obtain ⟨u, hu, hstamp⟩ := Option.map_eq_some_iff.mp htick
    refine .inr ⟨fun he => hne (by rw [LiveRoom.quit_users, he]; rfl), ?_⟩
    simp only [quitTick, timeoutsOf_cons_self, List.filter_cons]
    split
    · rw [List.getLast?_cons, hu]
      simp [hstamp]
    · rw [hu]
      simp [hstamp]

theorem Expiries.lives {tick : Int → UInt64} (cur : UInt64) (hv : RoomsTimed v)
    (h : Expiries tick v out after) (hl : after.rooms[k]? = some last) :
    Lives v k (.checkConnectionState cur tick) out last := by
  induction h with
  | done => exact lives_kept hv hl rfl rfl
  | @next v after out s k' hk hne rest ih =>
      obtain ⟨htimed, hemptied⟩ := ih (hv.leave s k' (tick s)) hl
      refine ⟨htimed, fun he => ?_⟩
      obtain ⟨room', hr', hcase⟩ := hemptied he
      rw [View.rooms_register, View.rooms_leave] at hr'
      by_cases hkk : k' = k
      · subst hkk
        rw [if_pos ⟨rfl, hne⟩] at hr'
        obtain ⟨room, hr, rfl⟩ := Option.map_eq_some_iff.mp hr'
        refine emptied_cons hr (fun hm => ?_) hcase
        exact rest.not_timeout (by simp) k' (timeout_of_mem_timeoutsOf hm)
      · rw [if_neg fun hk => hkk hk.1] at hr'
        refine ⟨room', hr', ?_⟩
        simpa only [quitTick, timeoutsOf_cons_of_ne s hkk] using hcase

theorem ViewStep.lives (hv : RoomsTimed v) (h : ViewStep v event out after)
    (hpass : ∀ cur tick, event ≠ .checkConnectionState cur tick)
    (hl : after.rooms[k]? = some last) : Lives v k event out last := by
  have hkept : v.rooms[k]? = some last → Lives v k event out last :=
    fun hr => lives_kept hv hr rfl rfl
  cases h with
  | established s tick => exact hkept hl
  | writeable s whole written => exact hkept hl
  | rejected s text env ht => exact hkept hl
  | unknown s text env cmd c d ht hj hq hb => exact hkept hl
  | join s text env c d ht h => exact h.lives hv hl
  | quit s text env c d ht h => exact h.lives hv text hl
  | heartbeat s text env c d ht => exact hkept hl
  | closed s tick =>
      rw [View.rooms_register, View.rooms_leave] at hl
      split at hl
      · obtain ⟨room, hr, rfl⟩ := Option.map_eq_some_iff.mp hl
        exact lives_quit hv hr s tick rfl
      · exact hkept hl
  | timeouts cur tick h => exact absurd rfl (hpass cur tick)
  | sweep env h => exact hkept (h.rooms hl)
  | hls token replies h =>
      cases h with
      | unknown => exact hkept hl
      | ready x room hr =>
          rw [View.rooms_setRoom] at hl
          split at hl
          · rename_i hx
            cases hl
            subst hx
            exact lives_kept hv hr rfl rfl
          · exact hkept hl
  | adapter event srv frames h => exact hkept hl

theorem step_lives {w final : Service} (hk : w.Keyed) (hv : RoomsTimed w.view)
    (hs : step w event = some (final, out)) (hl : final.rooms[k]? = some last) :
    Lives w.view k event out last := by
  by_cases hpass : ∃ cur tick, event = .checkConnectionState cur tick
  · obtain ⟨cur, tick, rfl⟩ := hpass
    exact (Service.checkLoop_expiries cur tick _ _ hk hs).1.lives cur hv hl
  · refine (step_view hk hs).1.lives hv (fun cur tick he => hpass ⟨cur, tick, he⟩) hl

theorem roomsTimed_of_run {guard : History → Service → Event → Prop} {history : History}
    {w : Service} (run : Run step guard initial history w) : w.Keyed ∧ RoomsTimed w.view := by
  refine run.invariant (fun _ w => w.Keyed ∧ RoomsTimed w.view) ⟨initial_keyed, ?_⟩ ?_
  · intro k room hr
    simp [initial, Service.view] at hr
  · intro history before event after out hinv _ hs
    exact ⟨(step_view hinv.1 hs).2, fun k last hl => (step_lives hinv.1 hinv.2 hs hl).1⟩

theorem EmptySince.run {t : UInt64} {history : History} {w : Service}
    (h : EmptySince k t history w) : Run step free initial history w := by
  induction h with
  | quit run _ _ hs _ _ _ => exact run.next trivial hs
  | still _ hs _ _ ih => exact ih.next trivial hs

-- A room without users has the tick of the quit that emptied it as its stamp.
theorem emptySince_timestamp {history : History} {w : Service} {room : LiveRoom}
    (run : Run step free initial history w) (hr : w.rooms[k]? = some room)
    (hempty : room.users = []) : EmptySince k room.timestamp history w := by
  induction run generalizing room with
  | init => simp [initial] at hr
  | @next history before after event out run hfree hs ih =>
      obtain ⟨hkeyed, htimed⟩ := roomsTimed_of_run run
      obtain ⟨earlier, he, hcase⟩ := (step_lives hkeyed htimed hs hr).2 hempty
      rcases hcase with ⟨hno, hstamp⟩ | ⟨husers, htick⟩
      · rw [hstamp]
        exact .still (ih he hno) hs hr hempty
      · exact .quit run he husers hs hr hempty htick

theorem EmptySince.room {t : UInt64} {history : History} {w : Service}
    (h : EmptySince k t history w) :
    ∃ room : LiveRoom, w.rooms[k]? = some room ∧ room.users = [] ∧ room.timestamp = t := by
  induction h with
  | @quit history before after event out room last run hroom husers hs hlast hempty htick =>
      obtain ⟨hkeyed, htimed⟩ := roomsTimed_of_run run
      obtain ⟨earlier, he, hcase⟩ := (step_lives hkeyed htimed hs hlast).2 hempty
      obtain rfl : room = earlier := Option.some.inj (hroom.symm.trans he)
      rcases hcase with ⟨hno, -⟩ | ⟨-, hstamp⟩
      · exact absurd hno husers
      · rw [htick] at hstamp
        exact ⟨last, hlast, hempty, (Option.some.inj hstamp).symm⟩
  | @still history before after event out last since hs hlast hempty ih =>
      obtain ⟨hkeyed, htimed⟩ := roomsTimed_of_run since.run
      obtain ⟨earlier, he, hcase⟩ := (step_lives hkeyed htimed hs hlast).2 hempty
      obtain ⟨room, hroom, hno, rfl⟩ := ih
      obtain rfl : room = earlier := Option.some.inj (hroom.symm.trans he)
      rcases hcase with ⟨-, hstamp⟩ | ⟨husers, -⟩
      · exact ⟨last, hlast, hempty, hstamp⟩
      · exact absurd hno husers

-- The ticks at which one operation can make sockets quit.
def quitTicks : Event → List Output → List UInt64
  | .request _ _ env, _ => [env.tick]
  | .closed _ tick, _ => [tick]
  | .checkConnectionState _ tick, out =>
      out.filterMap fun
        | .timeout s _ => some (tick s)
        | _ => none
  | _, _ => []

theorem mem_quitTicks {users : List Int} {t : UInt64} (h : quitTick users k event out = some t) :
    t ∈ quitTicks event out := by
  unfold quitTick at h
  split at h
  · simpa [quitTicks] using h.symm
  · simpa [quitTicks] using h.symm
  · obtain ⟨s, hs, rfl⟩ := Option.map_eq_some_iff.mp h
    have hm := (List.mem_filter.mp (List.mem_of_getLast? hs)).1
    exact List.mem_filterMap.mpr ⟨_, timeout_of_mem_timeoutsOf hm, rfl⟩
  · cases h

theorem EmptySince.mem_quitTicks {t : UInt64} {history : History} {w : Service}
    (h : EmptySince k t history w) : ∃ entry ∈ history, t ∈ quitTicks entry.1 entry.2 := by
  induction h with
  | @quit history before after event out room last run hroom husers hs hlast hempty htick =>
      exact ⟨(event, out), List.mem_cons_self, Wss.mem_quitTicks htick⟩
  | still _ _ _ _ ih =>
      obtain ⟨entry, hm, ht⟩ := ih
      exact ⟨entry, List.mem_cons_of_mem _ hm, ht⟩

-- Whether the sweep takes the room of a key: no users, and the difference of the ticks as
-- an unsigned number exceeds a minute.
def overdue (env : String → SweepEnv) (w : Service) (k : String) : Bool :=
  w.rooms[k]?.any fun p => p.size = 0 ∧ (env k).tick - p.timestamp > 60 * 1000

def stopPlays (out : List Output) : List (String × String) :=
  out.filterMap fun
    | .stopPlay cmsid devid => some (cmsid, devid)
    | _ => none

def camera (w : Service) (k : String) : Option (String × String) :=
  w.rooms[k]?.map fun p => (p.cmsid, p.devid)

theorem stopPlays_reap (c d : String) (frames : List Sent) (out : List Output) :
    stopPlays (.stopPlay c d :: (frames.map .sent ++ out)) = (c, d) :: stopPlays out := by
  have hsent : stopPlays (frames.map .sent) = [] := by
    simp [stopPlays, List.filterMap_map]
  unfold stopPlays at hsent ⊢
  rw [List.filterMap_cons, List.filterMap_append, hsent]
  rfl

theorem rooms_erase_of_ne {w : Service} {key x : String} (server : TcpServer) (hx : key ≠ x) :
    ({ w with rooms := w.rooms.erase key, server } : Service).rooms[x]? = w.rooms[x]? := by
  simp [Std.ExtTreeMap.getElem?_erase, hx]

-- The loop takes the due rooms among its keys, one `stop_play` each, and no other room.
theorem sweepLoop_spec (env : String → SweepEnv) (keys : List String) (w : Service)
    (hnodup : keys.Nodup) :
    (∀ x : String, (Service.sweepLoop env keys w).1.rooms[x]? =
      if x ∈ keys.filter (overdue env w) then none else w.rooms[x]?) ∧
    (stopPlays (Service.sweepLoop env keys w).2).map some =
      (keys.filter (overdue env w)).map (camera w) := by
  induction keys generalizing w with
  | nil => simp [Service.sweepLoop, stopPlays]
  | cons key rest ih =>
      obtain ⟨hkey, hrest⟩ := List.nodup_cons.mp hnodup
      unfold Service.sweepLoop
      split
      · rename_i hn
        rw [List.filter_cons_of_neg (by simp [overdue, hn])]
        exact ih w hrest
      · rename_i p hp
        split
        · rename_i hdue
          -- the rooms of the other keys are as they were
          have hsame : ∀ x ∈ rest, ∀ server : TcpServer,
              ({ w with rooms := w.rooms.erase key, server } : Service).rooms[x]? = w.rooms[x]? := by
            intro x hx server
            refine rooms_erase_of_ne server ?_
            rintro rfl
            exact hkey hx
          have hfilter : ∀ server : TcpServer,
              rest.filter (overdue env { w with rooms := w.rooms.erase key, server }) =
                rest.filter (overdue env w) := by
            intro server
            refine List.filter_congr fun x hx => ?_
            unfold overdue
            rw [hsame x hx]
          rw [List.filter_cons_of_pos (by simpa [overdue, hp] using hdue)]
          dsimp only
          obtain ⟨hrooms, hstops⟩ := ih { w with
            rooms := w.rooms.erase key,
            server := (AdapterServer.notifyStopPush w.server p.cmsid p.devid (env key).stop).2.1 } hrest
          rw [hfilter] at hrooms hstops
          refine ⟨?_, ?_⟩
          · intro x
            rw [hrooms]
            by_cases hx : key = x
            · subst hx
              simp
            · rw [rooms_erase_of_ne _ hx]
              simp [Ne.symm hx]
          · rw [stopPlays_reap, List.map_cons, hstops, List.map_cons]
            congr 1
            · simp [camera, hp]
            · refine List.map_congr_left fun x hx => ?_
              unfold camera
              rw [hsame x (List.mem_filter.mp hx).1]
        · rename_i hdue
          rw [List.filter_cons_of_neg (by simpa [overdue, hp] using hdue)]
          exact ih w hrest

-- The tick count has not gone back: what a sweep reads for a room is not before any tick
-- that a quit has read.
def ticksForward (history : History) (w : Service) (env : String → SweepEnv) : Prop :=
  ∀ k ∈ w.rooms, ∀ entry ∈ history, ∀ t ∈ quitTicks entry.1 entry.2, t ≤ (env k).tick

theorem sub_gt_iff {tick t : UInt64} (h : t ≤ tick) :
    tick - t > 60 * 1000 ↔ t.toNat + 60000 < tick.toNat := by
  have hle : t.toNat ≤ tick.toNat := UInt64.le_iff_toNat_le.mp h
  rw [gt_iff_lt, UInt64.lt_iff_toNat_lt, UInt64.toNat_sub_of_le _ _ h]
  show 60000 < tick.toNat - t.toNat ↔ t.toNat + 60000 < tick.toNat
  omega

-- With ticks that do not go back, the unsigned difference tells how long the room has
-- been empty.
theorem overdue_iff {history : History} {w : Service} {env : String → SweepEnv}
    (run : Run step free initial history w) (hticks : ticksForward history w env) (k : String) :
    overdue env w k = true ↔
      ∃ t, EmptySince k t history w ∧ t.toNat + 60000 < (env k).tick.toNat := by
  have hle : ∀ t, EmptySince k t history w → t ≤ (env k).tick := by
    intro t hsince
    obtain ⟨room, hr, -, -⟩ := hsince.room
    obtain ⟨entry, hm, ht⟩ := hsince.mem_quitTicks
    exact hticks k (Std.ExtTreeMap.mem_iff_isSome_getElem?.mpr (by rw [hr]; rfl)) entry hm t ht
  constructor
  · intro hdue
    obtain ⟨room, hr, hp⟩ := (Option.any_eq_true _ _).mp hdue
    obtain ⟨hsize, hlate⟩ := of_decide_eq_true hp
    have hsince := emptySince_timestamp run hr (List.length_eq_zero_iff.mp hsize)
    exact ⟨room.timestamp, hsince, (sub_gt_iff (hle _ hsince)).mp hlate⟩
  · rintro ⟨t, hsince, hlate⟩
    obtain ⟨room, hr, hempty, rfl⟩ := hsince.room
    refine (Option.any_eq_true _ _).mpr ⟨room, hr, decide_eq_true ⟨?_, ?_⟩⟩
    · exact List.length_eq_zero_iff.mpr hempty
    · exact (sub_gt_iff (hle _ hsince)).mpr hlate

-- The life cycle of the rooms. Along every run a room has no user twice, its stamp is 0
-- while it has users, and the tick of the quit that emptied it while it has none. A sweep
-- takes away the rooms that have been empty for more than a minute, calls `stop_play` once
-- for each, and leaves every other room as it is.
theorem room_life {history : History} {w : Service} (run : Run step free initial history w) :
    (∀ (k : String) (room : LiveRoom), w.rooms[k]? = some room →
      room.users.Nodup ∧ (room.users ≠ [] → room.timestamp = 0) ∧
        (room.users = [] → EmptySince k room.timestamp history w)) ∧
    ∀ env after out, ticksForward history w env → step w (.sweep env) = some (after, out) →
      ∃ reaped : List String, reaped.Nodup ∧
        (∀ k, k ∈ reaped ↔
          ∃ t, EmptySince k t history w ∧ t.toNat + 60000 < (env k).tick.toNat) ∧
        (∀ k : String, after.rooms[k]? = if k ∈ reaped then none else w.rooms[k]?) ∧
        (stopPlays out).map some = reaped.map (camera w) := by
  refine ⟨?_, ?_⟩
  · intro k room hr
    have ht := (roomsTimed_of_run run).2 k room hr
    exact ⟨ht.nodup, ht.occupied, emptySince_timestamp run hr⟩
  · intro env after out hticks hs
    have he := Option.some.inj hs
    obtain rfl : (w.sweep env).1 = after := congrArg Prod.fst he
    obtain rfl : (w.sweep env).2 = out := congrArg Prod.snd he
    have hnodup : w.rooms.keys.Nodup := Std.ExtTreeMap.nodup_keys
    obtain ⟨hrooms, hstops⟩ := sweepLoop_spec env w.rooms.keys w hnodup
    refine ⟨w.rooms.keys.filter (overdue env w), hnodup.filter _, ?_, hrooms, hstops⟩
    intro k
    rw [List.mem_filter, ← overdue_iff run hticks k]
    refine and_iff_right_of_imp fun hdue => ?_
    obtain ⟨room, hr, -⟩ := (Option.any_eq_true _ _).mp hdue
    rw [Std.ExtTreeMap.mem_keys, Std.ExtTreeMap.mem_iff_isSome_getElem?, hr]
    rfl

-- The quits of a history are not after a tick.
def quitsBefore (tick : UInt64) (history : History) : Bool :=
  history.all fun entry => (quitTicks entry.1 entry.2).all (· ≤ tick)

theorem ticksForward_of_quitsBefore {history : History} {tick : UInt64} (w : Service)
    (stop : String → StopEnv) (h : quitsBefore tick history = true) :
    ticksForward history w fun k => ⟨tick, stop k⟩ := by
  intro k _ entry hm t ht
  have hall := List.all_eq_true.mp (List.all_eq_true.mp h entry hm) t ht
  exact of_decide_eq_true hall

-- The only viewer of a camera closes at tick 2, and the sweep at tick 60003 stops it.
theorem room_life_after_close :
    ∃ history w, Run step free initial history w ∧ EmptySince "Ad" 2 history w ∧
      (w.sweep fun _ => ⟨60003, ⟨fun _ => 0, true, true⟩⟩).1.rooms["Ad"]? = none := by
  obtain ⟨history, w, run, ht⟩ := exists_run_of_ends step free initial
    [login 7 "A" ["d"], report 7 "d" 1, .established 1 0, joinRequest 1 "A" "d" "t" 1, .closed 1 2]
    (fun history w => quitsBefore 60003 history &&
      w.rooms["Ad"]?.any fun room => room.users = [] ∧ room.timestamp = 2)
    (guarded_free ..) (by decide +kernel)
  obtain ⟨hticks, hroom⟩ := Bool.and_eq_true_iff.mp ht
  obtain ⟨room, hr, hp⟩ := (Option.any_eq_true _ _).mp hroom
  obtain ⟨hempty, hstamp⟩ := of_decide_eq_true hp
  obtain ⟨hrooms, hsweep⟩ := room_life run
  have hsince := (hrooms "Ad" room hr).2.2 hempty
  rw [hstamp] at hsince
  obtain ⟨reaped, -, hmem, hrooms, -⟩ := hsweep _ _ _
    (ticksForward_of_quitsBefore w (fun _ => ⟨fun _ => 0, true, true⟩) hticks) rfl
  have hgone := hrooms "Ad"
  rw [if_pos ((hmem "Ad").mpr ⟨2, hsince, by decide⟩)] at hgone
  exact ⟨history, w, run, hsince, hgone⟩

end VideoAdapter.Wss

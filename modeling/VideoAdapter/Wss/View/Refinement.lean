import VideoAdapter.Wss.View

namespace VideoAdapter.Wss

open Adapter Lib
open Service (RequestEnv SweepEnv)

namespace Connections

variable {connections after : Connections} {s : Int} {f : Connection → Connection}

theorem getElem?_update (hu : connections.update s f = some after) (x : Int) :
    after[x]? = if s = x then connections[s]?.map (Option.map f) else connections[x]? := by
  unfold update at hu
  split at hu
  · rename_i hn
    cases hu
    by_cases hx : s = x
    · subst hx; simp [hn]
    · simp [hx]
  · cases hu
  · rename_i c hc
    cases hu
    by_cases hx : s = x
    · subst hx; simp [hc]
    · simp [Std.ExtTreeMap.getElem?_insert, hx]

theorem roomid_update (hu : connections.update s f = some after)
    (hf : ∀ c, (f c).value "roomid" = c.value "roomid") : after.roomid = connections.roomid := by
  funext x
  unfold roomid
  rw [getElem?_update hu x]
  by_cases hx : s = x
  · subst hx
    cases hc : connections[s]? with
    | none => simp
    | some entry => cases entry <;> simp [hf]
  · simp [hx]

theorem roomid_setValue {k : String} (hu : connections.setValue s "roomid" k = some after) :
    after.roomid = Function.update connections.roomid s ((connections.roomid s).map fun _ => k) := by
  funext x
  unfold roomid
  rw [getElem?_update hu x]
  by_cases hx : s = x
  · subst hx
    cases hc : connections[s]? with
    | none => simp
    | some entry => cases entry <;> simp [Connection.value, Connection.setValue]
  · simp [hx, Ne.symm hx]

theorem registered_eq (connections : Connections) (s : Int) :
    connections.registered s = (connections.roomid s).isSome := by
  unfold registered roomid
  split <;> rfl

theorem getValue_roomid {k : String} (hg : connections.getValue s "roomid" = some k) :
    (connections.roomid s).getD "" = k := by
  unfold getValue at hg
  unfold roomid
  split at hg <;> simp_all

-- Every entry that is not null carries its own key.
def Keyed (connections : Connections) : Prop :=
  ∀ (s : Int) (c : Connection), connections[s]? = some (some c) → c.socketid = s

theorem Keyed.update (hk : connections.Keyed) (hu : connections.update s f = some after)
    (hf : ∀ c, (f c).socketid = c.socketid) : after.Keyed := by
  intro x c hc
  rw [getElem?_update hu x] at hc
  split at hc
  · rename_i hx
    subst hx
    obtain ⟨entry, he, hm⟩ := Option.map_eq_some_iff.mp hc
    obtain ⟨c', rfl, rfl⟩ := Option.map_eq_some_iff.mp hm
    rw [hf]
    exact hk s c' he
  · exact hk x c hc

theorem Keyed.insert (hk : connections.Keyed) (entry : Option Connection)
    (he : ∀ c, entry = some c → c.socketid = s) : Keyed (connections.insert s entry) := by
  intro x c hc
  rw [Std.ExtTreeMap.getElem?_insert] at hc
  split at hc
  · rename_i hx
    rw [← Std.LawfulEqCmp.eq_of_compare hx]
    exact he c (Option.some.inj hc)
  · exact hk x c hc

theorem Keyed.erase (hk : connections.Keyed) : Keyed (connections.erase s) := by
  intro x c hc
  rw [Std.ExtTreeMap.getElem?_erase] at hc
  split at hc
  · cases hc
  · exact hk x c hc

theorem roomid_insert (entry : Option Connection) :
    roomid (connections.insert s entry) =
      Function.update connections.roomid s (entry.map (·.value "roomid")) := by
  funext x
  by_cases hx : x = s
  · subst hx
    cases entry <;> simp [roomid]
  · simp [roomid, Std.ExtTreeMap.getElem?_insert, Function.update_of_ne hx, Ne.symm hx]

theorem roomid_erase :
    roomid (connections.erase s) = Function.update connections.roomid s none := by
  funext x
  by_cases hx : x = s
  · subst hx
    simp [roomid]
  · simp [roomid, Std.ExtTreeMap.getElem?_erase, Function.update_of_ne hx, Ne.symm hx]

end Connections

theorem Expiries.timeouts {tick : Int → UInt64} {v after : View} {out : List Output}
    (h : Expiries tick v out after) : Timeouts v out after := by
  induction h with
  | done => exact .done
  | next s k hk hne rest ih => exact .next s k (tick s) hk hne ih

namespace Service

variable {w after : Service} {out : List Output} {s : Int}

def Keyed (w : Service) : Prop := w.connections.Keyed

theorem send_view {data : Reply} (hk : w.Keyed) (hs : w.send s data = some (after, out)) :
    after.view = w.view ∧ out = w.view.answer s data ∧ after.Keyed := by
  unfold send at hs
  obtain ⟨connections, hu, he⟩ := Option.map_eq_some_iff.mp hs
  cases he
  refine ⟨?_, ?_, hk.update hu fun _ => rfl⟩
  · simp only [view, Connections.roomid_update hu fun _ => rfl]
  · rw [Connections.registered_eq]
    rfl

theorem accept_view {k : String} {resp : Reply} {tick : UInt64} (hk : w.Keyed)
    (ha : w.accept s k resp tick = some (after, out)) :
    after.view = w.view.assign s k ∧ out = w.view.answer s resp ∧ after.Keyed := by
  simp only [accept, Option.bind_eq_bind, Option.bind_eq_some_iff, Option.pure_def,
    Option.some.injEq, Prod.mk.injEq] at ha
  obtain ⟨⟨mid, sent⟩, hs, c1, h1, c2, h2, he, ho⟩ := ha
  obtain ⟨hv, hout, hkm⟩ := send_view hk hs
  cases he
  cases ho
  have hroom : mid.connections.roomid = w.connections.roomid := congrArg View.roomid hv
  refine ⟨?_, hout, (hkm.update h1 fun _ => rfl).update h2 fun _ => rfl⟩
  have hr : c2.roomid = c1.roomid := Connections.roomid_update h2 fun _ => rfl
  simp only [view, View.assign, hr, Connections.roomid_setValue h1, hroom]
  congr 1
  · exact congrArg View.rooms hv
  · exact congrArg View.server hv

theorem startLiveroom_view {c d : String} {env : RequestEnv} (hk : w.Keyed)
    (hstatus : w.view.status c d = some 102)
    (hj : startLiveroom { w with rooms := w.rooms.erase (c ++ d) } s c d env = some (after, out)) :
    JoinView w.view s c d env out after.view ∧ after.Keyed := by
  obtain ⟨⟨mid, sent⟩, hb, he⟩ := Option.map_eq_some_iff.mp hj
  cases he
  dsimp only at hb
  split at hb
  · rename_i hr
    obtain ⟨hv, rfl, hka⟩ := send_view (w := { w with
      rooms := w.rooms.erase (c ++ d), server := (startResult w.view c d env).2.1 }) hk hb
    rw [hv]
    exact ⟨.failed hstatus hr, hka⟩
  · rename_i hr
    obtain ⟨hv, rfl, hka⟩ := accept_view (w := { w with
      rooms := (w.rooms.erase (c ++ d)).insert (c ++ d)
        (newRoom c d (startResult w.view c d env).1.token s),
      server := (startResult w.view c d env).2.1 }) hk hb
    rw [hv]
    -- the stored room replaces whatever the key had, so the erasure before it is not seen
    have hrooms : (w.rooms.erase (c ++ d)).insert (c ++ d)
        (newRoom c d (startResult w.view c d env).1.token s) =
        w.rooms.insert (c ++ d) (newRoom c d (startResult w.view c d env).1.token s) := by
      ext k room
      simp only [Std.ExtTreeMap.getElem?_insert, Std.ExtTreeMap.getElem?_erase]
      split <;> rfl
    rw [hrooms]
    exact ⟨.started hstatus (not_not.mp hr), hka⟩

theorem joinLiveroom_view {c d : String} {env : RequestEnv} (hk : w.Keyed)
    (hj : w.joinLiveroom s c d env = some (after, out)) :
    JoinView w.view s c d env out after.view ∧ after.Keyed := by
  unfold joinLiveroom at hj
  split at hj
  · cases hj
  rename_i ret hret
  have hstatus : w.view.status c d = some ret := hret
  dsimp only at hj
  split_ifs at hj with hoff hnot hplay
  · obtain ⟨hv, rfl, hka⟩ := send_view (w := { w with rooms := w.rooms.erase (c ++ d) }) hk hj
    rw [hv]
    exact ⟨.offline (by rcases hoff with rfl | rfl <;> simp [hstatus]), hka⟩
  · exact startLiveroom_view hk (hnot ▸ hstatus) hj
  · subst hplay
    split at hj
    · rename_i room hr
      obtain ⟨hv, rfl, hka⟩ := accept_view (w := { w with
        rooms := w.rooms.insert (c ++ d) (room.join s) }) hk hj
      rw [hv]
      rw [LiveRoom.join_rdy, LiveRoom.join_token]
      exact ⟨.joined room hstatus hr, hka⟩
    · rename_i hr
      obtain ⟨hv, rfl, hka⟩ := send_view hk hj
      rw [hv]
      exact ⟨.unexpected hstatus hr, hka⟩
  · rcases AdapterServer.checkStatus_cases hret with h | h | h | h
    · exact absurd (.inl h) hoff
    · exact absurd (.inr h) hoff
    · exact absurd h hnot
    · exact absurd h hplay

theorem quitLiveroom_view {c d : String} {env : RequestEnv} (hk : w.Keyed)
    (hq : w.quitLiveroom s c d env = some (after, out)) :
    QuitView w.view s c d env after.view ∧ out = w.view.answer s stopReply ∧ after.Keyed := by
  unfold quitLiveroom at hq
  split at hq
  · cases hq
  rename_i ret hret
  have hstatus : w.view.status c d = some ret := hret
  split_ifs at hq with hplay
  · subst hplay
    split at hq
    · rename_i room hr
      obtain ⟨connections, hc, hq⟩ := Option.bind_eq_some_iff.mp hq
      obtain ⟨hv, rfl, hka⟩ := send_view (w := { w with
        rooms := w.rooms.insert (c ++ d) (room.quit s env.tick), connections })
        (hk.update hc fun _ => rfl) hq
      have hroom := Connections.roomid_setValue hc
      refine ⟨?_, ?_, hka⟩
      · rw [hv]
        have hl : QuitView w.view s c d env _ := .left room hstatus hr
        simpa only [view, View.assign, View.setRoom, hroom] using hl
      · unfold View.answer view
        simp only [hroom, Function.update_self, Option.isSome_map]
    · rename_i hr
      obtain ⟨hv, rfl, hka⟩ := send_view hk hq
      rw [hv]
      exact ⟨.noRoom hstatus hr, rfl, hka⟩
  · obtain ⟨hv, rfl, hka⟩ := send_view (w := { w with rooms := w.rooms.erase (c ++ d) }) hk hq
    rw [hv]
    exact ⟨.notPlaying ret hstatus hplay, rfl, hka⟩

theorem heartbeat_view {tick : UInt64} (hk : w.Keyed)
    (hb : w.heartbeat s tick = some (after, out)) :
    after.view = w.view ∧ out = heartbeatOutput w.view s ∧ after.Keyed := by
  unfold heartbeat at hb
  obtain ⟨connections, hu, hb⟩ := Option.bind_eq_some_iff.mp hb
  obtain ⟨k, hg, hb⟩ := Option.bind_eq_some_iff.mp hb
  have hroom : connections.roomid = w.connections.roomid := Connections.roomid_update hu fun _ => rfl
  obtain ⟨hv, rfl, hka⟩ := send_view (w := { w with connections }) (hk.update hu fun _ => rfl) hb
  refine ⟨?_, ?_, hka⟩
  · rw [hv]
    simp only [view, hroom]
  · have hk' := Connections.getValue_roomid hg
    rw [hroom] at hk'
    simp only [heartbeatOutput, View.answer, view, hroom]
    cases hr : w.connections.roomid s with
    | none => rfl
    | some k' =>
        rw [hr] at hk'
        cases hk'
        rfl

theorem quitRoom_view (k : String) (tick : UInt64) :
    (w.quitRoom s k tick).view = w.view.leave s k tick := by
  unfold quitRoom View.leave
  split <;> rfl

theorem quitRoom_connections (k : String) (tick : UInt64) :
    (w.quitRoom s k tick).connections = w.connections := by
  unfold quitRoom
  split <;> rfl

theorem onConnectWrapper_view {tick : UInt64} (hk : w.Keyed)
    (hc : w.onConnectWrapper s tick = some after) :
    after.view = w.view.register s (some "") ∧ after.Keyed := by
  simp only [onConnectWrapper, Option.bind_eq_bind, Option.bind_eq_some_iff, Option.pure_def,
    Option.some.injEq] at hc
  obtain ⟨c1, h1, c2, h2, rfl⟩ := hc
  have hk0 := Connections.Keyed.insert (s := s) hk (some { socketid := s })
    (fun c hc => by cases hc; rfl)
  refine ⟨?_, (hk0.update h1 fun _ => rfl).update h2 fun _ => rfl⟩
  have hname : ∀ (c : Connection) (value : String),
      (c.setValue "handle" value).value "roomid" = c.value "roomid" := by
    intro c value
    simp [Connection.value, Connection.setValue, Std.ExtTreeMap.getElem?_insert]
  have hr2 : c2.roomid = c1.roomid := Connections.roomid_update h2 fun _ => rfl
  have hr1 := Connections.roomid_update h1 fun c => hname c _
  simp only [view, View.register, hr2, hr1, Connections.roomid_insert]
  rfl

theorem onDisconnectWrapper_view {tick : UInt64} (hk : w.Keyed)
    (hd : w.onDisconnectWrapper s tick = some after) :
    after.view = (w.view.leave s ((w.view.roomid s).getD "") tick).register s none ∧ after.Keyed := by
  simp only [onDisconnectWrapper, Option.bind_eq_bind, Option.bind_eq_some_iff, Option.pure_def,
    Option.some.injEq] at hd
  obtain ⟨k, hg, rfl⟩ := hd
  have hroom : (w.view.roomid s).getD "" = k := Connections.getValue_roomid hg
  rw [hroom, ← quitRoom_view]
  refine ⟨?_, ?_⟩
  · simp only [removeConnection, view, View.register, Connections.removeConnection,
      Connections.roomid_erase]
  · have hke := Connections.Keyed.erase (s := s) hk
    simpa only [Keyed, removeConnection, Connections.removeConnection, quitRoom_connections] using hke

theorem writeable_view (whole : Nat → Bool) (hk : w.Keyed) :
    (w.writeable s whole).1.view = w.view ∧
      (∃ written : List (Int × Reply × Bool),
        (w.writeable s whole).2 = written.map fun (s, data, b) => .written s data b) ∧
      (w.writeable s whole).1.Keyed := by
  unfold writeable
  split
  · rename_i c hc
    refine ⟨?_, ⟨c.buffer.zipIdx.map fun x => (s, x.1, whole x.2), by simp⟩,
      Connections.Keyed.insert hk _ fun c' he => by cases he; exact hk s c hc⟩
    have hr : w.connections.roomid s = some (c.value "roomid") := by simp [Connections.roomid, hc]
    simp only [view, Connections.roomid_insert]
    congr 1
    exact (Function.update_eq_self_iff).mpr hr.symm
  · rename_i hn
    refine ⟨?_, ⟨[], rfl⟩, Connections.Keyed.insert hk _ fun c' he => by cases he⟩
    have hr : w.connections.roomid s = none := by
      unfold Connections.roomid
      split
      · rename_i c hc
        exact absurd hc (hn c)
      · rfl
    simp only [view, Connections.roomid_insert]
    congr 1
    exact (Function.update_eq_self_iff).mpr hr.symm

-- The loop runs through timeouts of registered sockets that name a room.
theorem checkLoop_expiries (cur : UInt64) (tick : Int → UInt64) (fuel : Nat) (keys : List Int)
    (hk : w.Keyed) (hc : checkLoop cur tick fuel keys w = some (after, out)) :
    Expiries tick w.view out after.view ∧ after.Keyed := by
  induction fuel generalizing w keys after out with
  | zero =>
      cases hc
      exact ⟨.done, hk⟩
  | succ fuel ih =>
      cases keys with
      | nil =>
          cases hc
          exact ⟨.done, hk⟩
      | cons key rest =>
          unfold checkLoop at hc
          split at hc
          · exact ih rest hk hc
          · cases hc
          · rename_i c hkey
            dsimp only at hc
            split at hc
            · rename_i hexp
              obtain ⟨⟨last, tail⟩, hl, he⟩ := Option.map_eq_some_iff.mp hc
              cases he
              have hid := hk key c hkey
              have hr : w.view.roomid key = some (c.value "roomid") := by
                simp [view, Connections.roomid, hkey]
              have hkeyed : Keyed { w.quitRoom c.socketid (c.value "roomid") (tick c.socketid) with
                  connections := (w.quitRoom c.socketid (c.value "roomid")
                    (tick c.socketid)).connections.insert key (some (c.setValue "roomid" "")) } := by
                unfold Keyed
                rw [quitRoom_connections]
                exact Connections.Keyed.insert hk _ fun c' hc' => by cases hc'; exact hid
              obtain ⟨hrest, hka⟩ := ih (key :: rest) hkeyed hl
              refine ⟨?_, hka⟩
              rw [hid]
              refine .next key (c.value "roomid") hr hexp.2 ?_
              rw [hid] at hrest
              have hv : View.register (w.view.leave key (c.value "roomid") (tick key)) key (some "") =
                  view { w.quitRoom key (c.value "roomid") (tick key) with
                    connections := (w.quitRoom key (c.value "roomid")
                      (tick key)).connections.insert key (some (c.setValue "roomid" "")) } := by
                rw [← quitRoom_view]
                simp only [view, View.register, Connections.roomid_insert]
                simp [Connection.value, Connection.setValue]
              rw [hv]
              exact hrest
            · exact ih rest hk hc

theorem sweepLoop_view (env : String → SweepEnv) (keys : List String) (w : Service) :
    Sweep env w.view (sweepLoop env keys w).2 (sweepLoop env keys w).1.view ∧
      (sweepLoop env keys w).1.connections = w.connections := by
  induction keys generalizing w with
  | nil => exact ⟨.done, rfl⟩
  | cons key rest ih =>
      unfold sweepLoop
      split
      · exact ih w
      · rename_i p hp
        split
        · rename_i hdue
          obtain ⟨hs, hc⟩ := ih { w with
            rooms := w.rooms.erase key,
            server := (AdapterServer.notifyStopPush w.server p.cmsid p.devid (env key).stop).2.1 }
          exact ⟨.reap key p hp (List.length_eq_zero_iff.mp hdue.1) hdue.2 hs, hc⟩
        · exact ih w

theorem broadcast_view {data : Reply} {users : List Int} (hk : w.Keyed)
    (hb : broadcast data users w = some (after, out)) :
    after.view = w.view ∧
      (∃ replies : List (Int × Reply), out = replies.map fun (s, data) => .reply s data) ∧
      after.Keyed := by
  induction users generalizing w after out with
  | nil =>
      cases hb
      exact ⟨rfl, ⟨[], rfl⟩, hk⟩
  | cons user rest ih =>
      simp only [broadcast, Option.bind_eq_bind, Option.bind_eq_some_iff, Option.pure_def,
        Option.some.injEq, Prod.mk.injEq] at hb
      obtain ⟨⟨mid, first⟩, hs, ⟨last, more⟩, hr, rfl, rfl⟩ := hb
      obtain ⟨hv, hfirst, hkm⟩ := send_view hk hs
      obtain ⟨hv', ⟨replies, hmore⟩, hka⟩ := ih hkm hr
      refine ⟨hv'.trans hv, ?_, hka⟩
      unfold View.answer at hfirst
      subst hmore
      by_cases hreg : (w.view.roomid user).isSome
      · exact ⟨(user, data) :: replies, by simp [hfirst, hreg]⟩
      · exact ⟨replies, by simp [hfirst, hreg]⟩

theorem notifyHls_view {token : String} (hk : w.Keyed)
    (hn : w.notifyHls token = some (after, out)) :
    HlsView w.view after.view ∧
      (∃ replies : List (Int × Reply), out = replies.map fun (s, data) => .reply s data) ∧
      after.Keyed := by
  unfold notifyHls at hn
  split at hn
  · cases hn
    exact ⟨.unknown, ⟨[], rfl⟩, hk⟩
  · rename_i key p hf
    have hp : w.rooms[key]? = some p :=
      Std.ExtTreeMap.mem_toList_iff_getElem?_eq_some.mp (List.mem_of_find?_eq_some hf)
    obtain ⟨hv, hout, hka⟩ := broadcast_view (w := { w with
      rooms := w.rooms.insert key { p with rdy := true } }) hk hn
    rw [hv]
    exact ⟨.ready key p hp, hout, hka⟩

theorem handleRequest_view {text : Option Json.Value} {env : RequestEnv} (hk : w.Keyed)
    (hr : w.handleRequest s text env = some (after, out)) :
    ViewStep w.view (.request s text env) out after.view ∧ after.Keyed := by
  have hremove : (w.removeConnection s).view = w.view.register s none ∧
      (w.removeConnection s).Keyed := by
    refine ⟨?_, Connections.Keyed.erase hk⟩
    simp only [removeConnection, view, View.register, Connections.removeConnection,
      Connections.roomid_erase]
  unfold handleRequest at hr
  split at hr
  · cases hr
  · rename_i ht
    cases hr
    rw [hremove.1]
    exact ⟨.rejected s text env ht, hremove.2⟩
  · rename_i cmd c d ht
    split_ifs at hr with hj hq hb
    · subst hj
      obtain ⟨h, hka⟩ := joinLiveroom_view hk hr
      exact ⟨.join s text env c d ht h, hka⟩
    · subst hq
      obtain ⟨h, rfl, hka⟩ := quitLiveroom_view hk hr
      exact ⟨.quit s text env c d ht h, hka⟩
    · subst hb
      obtain ⟨hv, rfl, hka⟩ := heartbeat_view hk hr
      rw [hv]
      exact ⟨.heartbeat s text env c d ht, hka⟩
    · cases hr
      rw [hremove.1]
      exact ⟨.unknown s text env cmd c d ht hj hq hb, hremove.2⟩

end Service

-- The service refines the view: every step of it is a step of the view.
theorem step_view {w after : Service} {event : Event} {out : List Output} (hk : w.Keyed)
    (hs : step w event = some (after, out)) :
    ViewStep w.view event out after.view ∧ after.Keyed := by
  cases event with
  | established s tick =>
      obtain ⟨mid, hc, he⟩ := Option.map_eq_some_iff.mp hs
      cases he
      obtain ⟨hv, hka⟩ := Service.onConnectWrapper_view hk hc
      rw [hv]
      exact ⟨.established s tick, hka⟩
  | writeable s whole =>
      have he := Option.some.inj hs
      obtain rfl : (w.writeable s whole).1 = after := congrArg Prod.fst he
      obtain rfl : (w.writeable s whole).2 = out := congrArg Prod.snd he
      obtain ⟨hv, ⟨written, ho⟩, hka⟩ := Service.writeable_view (s := s) whole hk
      rw [hv, ho]
      exact ⟨.writeable s whole written, hka⟩
  | request s text env => exact Service.handleRequest_view hk hs
  | closed s tick =>
      obtain ⟨mid, hd, he⟩ := Option.map_eq_some_iff.mp hs
      cases he
      obtain ⟨hv, hka⟩ := Service.onDisconnectWrapper_view hk hd
      rw [hv]
      exact ⟨.closed s tick, hka⟩
  | checkConnectionState cur tick =>
      obtain ⟨h, hka⟩ := Service.checkLoop_expiries cur tick _ _ hk hs
      exact ⟨.timeouts cur tick h.timeouts, hka⟩
  | sweep env =>
      have he := Option.some.inj hs
      obtain rfl : (w.sweep env).1 = after := congrArg Prod.fst he
      obtain rfl : (w.sweep env).2 = out := congrArg Prod.snd he
      obtain ⟨h, hc⟩ := Service.sweepLoop_view env w.rooms.keys w
      refine ⟨.sweep env h, ?_⟩
      simpa only [Service.Keyed, Service.sweep, hc] using hk
  | notifyHls token =>
      obtain ⟨h, ⟨replies, rfl⟩, hka⟩ := Service.notifyHls_view hk hs
      exact ⟨.hls token replies h, hka⟩
  | adapter event =>
      obtain ⟨⟨srv, frames⟩, ha, he⟩ := Option.map_eq_some_iff.mp hs
      cases he
      exact ⟨.adapter event srv frames ha, hk⟩

theorem initial_keyed : initial.Keyed := by
  intro s c hc
  simp [initial] at hc

-- An invariant of the view, with the history, along every guarded run of the service.
theorem view_invariant {guard : History → Service → Event → Prop} (inv : History → View → Prop)
    (hinit : inv [] initial.view)
    (hstep : ∀ history w event out after, inv history w.view → guard history w event →
      ViewStep w.view event out after → inv ((event, out) :: history) after)
    {history : History} {w : Service} (run : Run step guard initial history w) :
    inv history w.view ∧ w.Keyed := by
  refine run.invariant (fun history w => inv history w.view ∧ w.Keyed) ⟨hinit, initial_keyed⟩ ?_
  intro history before event after out hinv hguard hs
  obtain ⟨hv, hka⟩ := step_view hinv.2 hs
  exact ⟨hstep history before event out after.view hinv.1 hguard hv, hka⟩

end VideoAdapter.Wss

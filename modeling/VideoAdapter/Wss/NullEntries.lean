import VideoAdapter.Wss.View.Refinement

namespace VideoAdapter.Wss

open Adapter Lib
open Service (RequestEnv SweepEnv)

namespace Connections

-- Every entry is a connection that carries its own key.
def WellFormed (connections : Connections) : Prop :=
  ∀ (s : Int) (entry : Option Connection), connections[s]? = some entry →
    ∃ c, entry = some c ∧ c.socketid = s

-- No entry is a null pointer.
def NoNull (connections : Connections) : Prop := ∀ s : Int, connections[s]? ≠ some none

theorem wellFormed_iff (connections : Connections) :
    connections.WellFormed ↔ connections.Keyed ∧ connections.NoNull := by
  constructor
  · intro h
    refine ⟨?_, ?_⟩
    · intro s c hc
      obtain ⟨c', he, hid⟩ := h s _ hc
      cases he
      exact hid
    · intro s hs
      obtain ⟨c, he, -⟩ := h s _ hs
      cases he
  · rintro ⟨hkeyed, hnull⟩ s entry hs
    cases entry with
    | none => exact absurd hs (hnull s)
    | some c => exact ⟨c, rfl, hkeyed s c hs⟩

variable {connections after : Connections} {s : Int} {f : Connection → Connection}

theorem NoNull.update (h : connections.NoNull) (hu : connections.update s f = some after) :
    after.NoNull := by
  intro x hx
  rw [getElem?_update hu x] at hx
  split at hx
  · obtain ⟨entry, he, hm⟩ := Option.map_eq_some_iff.mp hx
    cases entry with
    | none => exact h s he
    | some c => cases hm
  · exact h x hx

theorem NoNull.insert (h : connections.NoNull) (c : Connection) :
    NoNull (connections.insert s (some c)) := by
  intro x hx
  rw [Std.ExtTreeMap.getElem?_insert] at hx
  split at hx
  · cases hx
  · exact h x hx

theorem NoNull.erase (h : connections.NoNull) : NoNull (connections.erase s) := by
  intro x hx
  rw [Std.ExtTreeMap.getElem?_erase] at hx
  split at hx
  · cases hx
  · exact h x hx

theorem NoNull.update_isSome (h : connections.NoNull) (s : Int) (f : Connection → Connection) :
    (connections.update s f).isSome := by
  unfold Connections.update
  split
  · rfl
  · rename_i hs
    exact absurd hs (h s)
  · rfl

theorem NoNull.getValue_isSome (h : connections.NoNull) (s : Int) (name : String) :
    (connections.getValue s name).isSome := by
  unfold getValue
  split
  · rfl
  · rename_i hs
    exact absurd hs (h s)
  · rfl

end Connections

namespace Service

variable {w after : Service} {out : List Output} {s : Int}

-- No function of the connection table ends the process at a null pointer.
structure DerefsNoNull (w : Service) : Prop where
  send : ∀ s data, (w.connections.send s data).isSome
  setValue : ∀ s name value, (w.connections.setValue s name value).isSome
  getValue : ∀ s name, (w.connections.getValue s name).isSome
  updateTimestamp : ∀ s tick, (w.connections.updateTimestamp s tick).isSome
  checkConnectionState : ∀ cur tick, (w.checkConnectionState cur tick).isSome

theorem send_noNull {data : Reply} (hs : w.send s data = some (after, out))
    (h : w.connections.NoNull) : after.connections.NoNull := by
  obtain ⟨connections, hu, he⟩ := Option.map_eq_some_iff.mp hs
  cases he
  exact h.update hu

theorem accept_noNull {k : String} {resp : Reply} {tick : UInt64}
    (ha : w.accept s k resp tick = some (after, out)) (h : w.connections.NoNull) :
    after.connections.NoNull := by
  simp only [accept, Option.bind_eq_bind, Option.bind_eq_some_iff, Option.pure_def,
    Option.some.injEq, Prod.mk.injEq] at ha
  obtain ⟨⟨mid, sent⟩, hs, c1, h1, c2, h2, rfl, -⟩ := ha
  exact ((send_noNull hs h).update h1).update h2

theorem startLiveroom_noNull {c d : String} {env : RequestEnv}
    (hj : w.startLiveroom s c d env = some (after, out)) (h : w.connections.NoNull) :
    after.connections.NoNull := by
  obtain ⟨⟨mid, sent⟩, hb, he⟩ := Option.map_eq_some_iff.mp hj
  cases he
  dsimp only at hb
  split at hb
  · exact send_noNull hb h
  · exact accept_noNull hb h

theorem joinLiveroom_noNull {c d : String} {env : RequestEnv}
    (hj : w.joinLiveroom s c d env = some (after, out)) (h : w.connections.NoNull) :
    after.connections.NoNull := by
  unfold joinLiveroom at hj
  split at hj
  · cases hj
  dsimp only at hj
  split_ifs at hj with hoff hnot hplay
  · exact send_noNull hj h
  · exact startLiveroom_noNull hj h
  · split at hj
    · exact accept_noNull hj h
    · exact send_noNull hj h
  · exact send_noNull hj h

theorem quitLiveroom_noNull {c d : String} {env : RequestEnv}
    (hq : w.quitLiveroom s c d env = some (after, out)) (h : w.connections.NoNull) :
    after.connections.NoNull := by
  unfold quitLiveroom at hq
  split at hq
  · cases hq
  split_ifs at hq with hplay
  · split at hq
    · obtain ⟨connections, hc, hq⟩ := Option.bind_eq_some_iff.mp hq
      exact send_noNull hq (h.update hc)
    · exact send_noNull hq h
  · exact send_noNull hq h

theorem heartbeat_noNull {tick : UInt64} (hb : w.heartbeat s tick = some (after, out))
    (h : w.connections.NoNull) : after.connections.NoNull := by
  obtain ⟨connections, hu, hb⟩ := Option.bind_eq_some_iff.mp hb
  obtain ⟨roomid, -, hb⟩ := Option.bind_eq_some_iff.mp hb
  exact send_noNull hb (h.update hu)

theorem handleRequest_noNull {text : Option Json.Value} {env : RequestEnv}
    (hr : w.handleRequest s text env = some (after, out)) (h : w.connections.NoNull) :
    after.connections.NoNull := by
  unfold handleRequest at hr
  split at hr
  · cases hr
  · cases hr
    exact h.erase
  · split_ifs at hr with hj hq hb
    · exact joinLiveroom_noNull hr h
    · exact quitLiveroom_noNull hr h
    · exact heartbeat_noNull hr h
    · cases hr
      exact h.erase

theorem onConnectWrapper_noNull {tick : UInt64} (hc : w.onConnectWrapper s tick = some after)
    (h : w.connections.NoNull) : after.connections.NoNull := by
  simp only [onConnectWrapper, Option.bind_eq_bind, Option.bind_eq_some_iff, Option.pure_def,
    Option.some.injEq] at hc
  obtain ⟨c1, h1, c2, h2, rfl⟩ := hc
  exact ((h.insert _).update h1).update h2

theorem onDisconnectWrapper_noNull {tick : UInt64} (hd : w.onDisconnectWrapper s tick = some after)
    (h : w.connections.NoNull) : after.connections.NoNull := by
  obtain ⟨roomid, -, he⟩ := Option.bind_eq_some_iff.mp hd
  cases he
  rw [← quitRoom_connections (s := s) roomid tick] at h
  exact h.erase

-- Without null entries the loop over the connections never ends the process.
theorem checkLoop_noNull (cur : UInt64) (tick : Int → UInt64) (fuel : Nat) (keys : List Int)
    (h : w.connections.NoNull) :
    ∃ last out, checkLoop cur tick fuel keys w = some (last, out) ∧ last.connections.NoNull := by
  induction fuel generalizing w keys with
  | zero => exact ⟨w, [], rfl, h⟩
  | succ fuel ih =>
      cases keys with
      | nil => exact ⟨w, [], rfl, h⟩
      | cons key rest =>
          unfold checkLoop
          split
          · exact ih rest h
          · rename_i hkey
            exact absurd hkey (h key)
          · rename_i c hkey
            dsimp only
            split
            · have hquit := h
              rw [← quitRoom_connections (s := c.socketid) (c.value "roomid")
                (tick c.socketid)] at hquit
              obtain ⟨last, out, hl, hn⟩ := ih (w := ⟨_, _, _⟩) (key :: rest)
                (hquit.insert (s := key) (c.setValue "roomid" ""))
              refine ⟨last, .timeout c.socketid (c.value "roomid") :: out, ?_, hn⟩
              exact Option.map_eq_some_iff.mpr ⟨(last, out), hl, rfl⟩
            · exact ih rest h

theorem broadcast_noNull {data : Reply} {users : List Int}
    (hb : broadcast data users w = some (after, out)) (h : w.connections.NoNull) :
    after.connections.NoNull := by
  induction users generalizing w after out with
  | nil =>
      cases hb
      exact h
  | cons user rest ih =>
      simp only [broadcast, Option.bind_eq_bind, Option.bind_eq_some_iff, Option.pure_def,
        Option.some.injEq, Prod.mk.injEq] at hb
      obtain ⟨⟨mid, first⟩, hs, ⟨last, more⟩, hr, rfl, -⟩ := hb
      exact ih hr (send_noNull hs h)

theorem notifyHls_noNull {token : String} (hn : w.notifyHls token = some (after, out))
    (h : w.connections.NoNull) : after.connections.NoNull := by
  unfold notifyHls at hn
  split at hn
  · cases hn
    exact h
  · exact broadcast_noNull hn h

-- The writable callback is the only place that stores a null pointer, and does so for
-- every socket that has no entry.
theorem writeable_noNull_iff (whole : Nat → Bool) (h : w.connections.NoNull) :
    (w.writeable s whole).1.connections.NoNull ↔ w.connections.registered s = true := by
  unfold writeable
  split
  · rename_i c hc
    have hreg : w.connections.registered s = true := by simp [Connections.registered, hc]
    exact iff_of_true (h.insert _) hreg
  · rename_i hn
    have hreg : ¬ w.connections.registered s = true := by
      unfold Connections.registered
      split
      · rename_i c hc
        exact absurd hc (hn c)
      · simp
    refine iff_of_false (fun hnull => hnull s ?_) hreg
    simp

theorem derefsNoNull (h : w.connections.NoNull) : w.DerefsNoNull where
  send s _ := h.update_isSome s _
  setValue s _ _ := h.update_isSome s _
  getValue s name := h.getValue_isSome s name
  updateTimestamp s _ := h.update_isSome s _
  checkConnectionState cur tick := by
    obtain ⟨last, out, he, -⟩ := checkLoop_noNull cur tick
      (2 * w.connections.keys.length + 1) w.connections.keys h
    unfold checkConnectionState
    rw [he]
    rfl

end Service

-- The writable callback comes only for a socket that has a connection.
def writesRegistered (_ : History) (w : Service) : Event → Prop
  | .writeable s _ => w.connections.registered s = true
  | _ => True

-- The callbacks keep null pointers out of the table exactly as long as the writable
-- callback finds the socket there.
theorem step_noNull_iff {history : History} {w after : Service} {event : Event}
    {out : List Output} (h : w.connections.NoNull) (hs : step w event = some (after, out)) :
    writesRegistered history w event ↔ after.connections.NoNull := by
  cases event with
  | established s tick =>
      obtain ⟨last, hc, he⟩ := Option.map_eq_some_iff.mp hs
      cases he
      exact iff_of_true trivial (Service.onConnectWrapper_noNull hc h)
  | writeable s whole =>
      have he : (w.writeable s whole).1 = after := congrArg Prod.fst (Option.some.inj hs)
      rw [← he]
      exact (Service.writeable_noNull_iff whole h).symm
  | request s text env => exact iff_of_true trivial (Service.handleRequest_noNull hs h)
  | closed s tick =>
      obtain ⟨last, hd, he⟩ := Option.map_eq_some_iff.mp hs
      cases he
      exact iff_of_true trivial (Service.onDisconnectWrapper_noNull hd h)
  | checkConnectionState cur tick =>
      obtain ⟨last, out', he, hn⟩ := Service.checkLoop_noNull cur tick
        (2 * w.connections.keys.length + 1) w.connections.keys h
      rw [show step w (.checkConnectionState cur tick) = some (last, out') from he] at hs
      cases hs
      exact iff_of_true trivial hn
  | sweep env =>
      have he : (w.sweep env).1 = after := congrArg Prod.fst (Option.some.inj hs)
      have hc : (w.sweep env).1.connections = w.connections :=
        (Service.sweepLoop_view env w.rooms.keys w).2
      rw [← he, hc]
      exact iff_of_true trivial h
  | notifyHls token => exact iff_of_true trivial (Service.notifyHls_noNull hs h)
  | adapter event =>
      obtain ⟨⟨srv, frames⟩, -, he⟩ := Option.map_eq_some_iff.mp hs
      cases he
      exact iff_of_true trivial h

-- The table is well-formed, and no function that reads it meets a null pointer.
def TableSound (w : Service) : Prop := w.connections.WellFormed ∧ w.DerefsNoNull

theorem tableSound_iff {w : Service} (hk : w.Keyed) : TableSound w ↔ w.connections.NoNull := by
  constructor
  · rintro ⟨hwf, -⟩
    exact ((Connections.wellFormed_iff _).mp hwf).2
  · intro hn
    exact ⟨(Connections.wellFormed_iff _).mpr ⟨hk, hn⟩, Service.derefsNoNull hn⟩

-- The runs whose connection table is well-formed in every state they pass are the runs in
-- which every writable callback is for a socket with a connection.
theorem table_sound_iff {history : History} {w : Service} (run : Run step free initial history w) :
    Run step writesRegistered initial history w ↔
      ∀ earlier state, earlier <:+ history → Run step free initial earlier state →
        TableSound state := by
  have hinit : TableSound initial := by
    refine (tableSound_iff initial_keyed).mpr ?_
    intro s hs
    simp [initial] at hs
  refine run.guarded_iff_under (fun _ state => state.Keyed) (fun _ state => TableSound state)
    initial_keyed ?_ hinit ?_
  · exact fun history before event after out hk hs => (step_view hk hs).2
  · intro history before event after out hk hsound hs
    rw [step_noNull_iff ((tableSound_iff hk).mp hsound) hs, tableSound_iff (step_view hk hs).2]

-- The writable callback finds its socket connected.
def writesConnected (_ : History) (w : Service) (event : Event) : Bool :=
  match event with
  | .writeable s _ => w.connections.registered s
  | _ => true

theorem writesRegistered_of_writesConnected (history : History) (w : Service) (event : Event)
    (h : writesConnected history w event = true) : writesRegistered history w event := by
  cases event <;> first | exact h | trivial

-- A socket connects, its heartbeat is answered and the answer is written.
theorem table_sound_after_write :
    ∃ history w, Run step writesRegistered initial history w ∧
      w.connections.registered 1 = true ∧ TableSound w := by
  obtain ⟨history, w, run, ht⟩ := exists_run_of_ends step writesRegistered initial
    [.established 1 0, heartbeatRequest 1 1, .writeable 1 fun _ => true]
    (fun _ w => w.connections.registered 1)
    (guarded_of_passes writesConnected writesRegistered_of_writesConnected (by decide +kernel))
    (by decide +kernel)
  have hfree := run.unguarded
  exact ⟨history, w, run, ht,
    (table_sound_iff hfree).mp run history w (List.suffix_refl _) hfree⟩

-- A request that is no JSON object takes the entry of its socket away. The socket stays
-- open, and its next writable callback stores a null pointer.
theorem table_not_sound :
    ¬ ∀ history w, Run step free initial history w → TableSound w := by
  intro hall
  obtain ⟨history, w, run, ht⟩ := exists_run_of_ends step free initial
    [.established 1 0, .request 1 none (requestEnv "" 1), .writeable 1 fun _ => true]
    (fun _ w => w.connections[(1 : Int)]?.any (·.isNone)) (guarded_free ..) (by decide +kernel)
  obtain ⟨entry, he, hnone⟩ := (Option.any_eq_true _ _).mp ht
  obtain ⟨c, rfl, -⟩ := (hall history w run).1 1 entry he
  cases hnone

end VideoAdapter.Wss

import VideoAdapter.Wss.Join.Moves
import VideoAdapter.Wss.View

namespace VideoAdapter.Wss

open Adapter
open Service (RequestEnv)

-- The rooms as a search in `rooms_` reaches them.
def Joins.service (m : Joins) : Service where
  connections := m.connections
  rooms := m.rooms.filterMap fun _ p => m.heap[p]?.join
  server := m.server

-- Every stored pointer leads to a room, and no room is stored twice.
structure Joins.Owned (m : Joins) : Prop where
  live : ∀ (k : String) (p : Nat), m.rooms[k]? = some p →
    ∃ room : LiveRoom, m.heap[p]? = some (some room)
  inj : ∀ (k k' : String) (p : Nat), m.rooms[k]? = some p → m.rooms[k']? = some p → k = k'

-- The call of one socket runs to its end while the others wait.
inductive Solo (c d : String) (s : Int) (env : RequestEnv) : Joins → List Output → Joins → Prop
  | done {m : Joins} (code : Int) (hc : m.call s = some (.done code)) : Solo c d s env m [] m
  | next {m mid final : Joins} {out outs : List Output}
      (hs : joinStep c d m (s, env) = some (mid, out)) (rest : Solo c d s env mid outs final) :
      Solo c d s env m (out ++ outs) final

variable {m final final' : Joins} {c d k : String} {s : Int} {env : RequestEnv}
  {out out' : List Output} {w : Service}

-- The steps of one call are determined by what the world contributes.
theorem Solo.unique (h : Solo c d s env m out final) (h' : Solo c d s env m out' final') :
    out = out' ∧ final = final' := by
  induction h generalizing out' with
  | done code hc =>
      cases h' with
      | done _ _ => exact ⟨rfl, rfl⟩
      | next hs _ => simp [joinStep, hc] at hs
  | next hs _ ih =>
      cases h' with
      | done code hc => simp [joinStep, hc] at hs
      | next hs' rest' =>
          rw [hs] at hs'
          cases hs'
          obtain ⟨rfl, rfl⟩ := ih rest'
          exact ⟨rfl, rfl⟩

theorem rooms_service (m : Joins) (k : String) :
    m.service.rooms[k]? = m.rooms[k]?.bind fun p => m.heap[p]?.join := by
  simp [Joins.service]

@[simp] theorem service_goto (m : Joins) (s : Int) (pc : Pc) : (m.goto s pc).service = m.service :=
  rfl

-- Two states are the same for a sequential reader when every search gives the same room.
theorem service_eq (hconnections : m.connections = w.connections) (hserver : m.server = w.server)
    (hrooms : ∀ k : String, m.service.rooms[k]? = w.rooms[k]?) : m.service = w := by
  have hmaps : m.service.rooms = w.rooms := Std.ExtTreeMap.ext_getElem? fun {k} => hrooms k
  cases w
  simp only [Joins.service, Service.mk.injEq] at hmaps ⊢
  exact ⟨hconnections, hmaps, hserver⟩

theorem Joins.Owned.service_delete (hv : m.Owned) (k : String) :
    (m.delete k).service = { m.service with rooms := m.service.rooms.erase k } := by
  refine service_eq ?_ (Joins.server_delete m k) fun x => ?_
  · unfold Joins.delete
    split <;> rfl
  · rw [rooms_service, Std.ExtTreeMap.getElem?_erase, rooms_service]
    unfold Joins.delete
    cases hk : m.rooms[k]? with
    | none =>
        by_cases hx : k = x
        · subst hx
          simp [hk]
        · simp [hx]
    | some p =>
        by_cases hx : k = x
        · subst hx
          simp
        · -- another key has another cell
          simp only [Std.ExtTreeMap.getElem?_erase, Std.compare_eq_iff_eq, hx, if_false]
          cases hr : m.rooms[x]? with
          | none => rfl
          | some q =>
              have hne : p ≠ q := fun he => hx (hv.inj k x p hk (he ▸ hr))
              simp [hne]

theorem Joins.Owned.service_set (hv : m.Owned) {p : Nat} (hp : m.rooms[k]? = some p)
    (room : LiveRoom) :
    Joins.service { m with heap := m.heap.set p (some room) } =
      { m.service with rooms := m.service.rooms.insert k room } := by
  obtain ⟨old, hold⟩ := hv.live k p hp
  have hlt : p < m.heap.length := (List.getElem?_eq_some_iff.mp hold).1
  refine service_eq rfl rfl fun x => ?_
  rw [rooms_service, Std.ExtTreeMap.getElem?_insert, rooms_service]
  by_cases hx : k = x
  · subst hx
    simp [hp, hlt]
  · simp only [Std.compare_eq_iff_eq, hx, if_false]
    cases hr : m.rooms[x]? with
    | none => rfl
    | some q =>
        have hne : p ≠ q := fun he => hx (hv.inj k x p hp (he ▸ hr))
        simp [hne]

-- A new cell that is stored under the key.
theorem Joins.Owned.service_append (hv : m.Owned) (k : String) (room : LiveRoom) :
    Joins.service { m with
      heap := m.heap ++ [some room], rooms := m.rooms.insert k m.heap.length } =
      { m.service with rooms := m.service.rooms.insert k room } := by
  refine service_eq rfl rfl fun x => ?_
  rw [rooms_service]
  simp only [Std.ExtTreeMap.getElem?_insert, Std.compare_eq_iff_eq, rooms_service]
  by_cases hx : k = x
  · subst hx
    simp
  · simp only [hx, if_false]
    cases hr : m.rooms[x]? with
    | none => rfl
    | some q =>
        obtain ⟨old, hold⟩ := hv.live x q hr
        have hlt : q < m.heap.length := (List.getElem?_eq_some_iff.mp hold).1
        simp [List.getElem?_append_left hlt]

theorem Joins.Owned.delete (hv : m.Owned) (k : String) : (m.delete k).Owned := by
  unfold Joins.delete
  cases hk : m.rooms[k]? with
  | none => exact hv
  | some p =>
      have hold : ∀ (x : String) (q : Nat), (m.rooms.erase k)[x]? = some q →
          k ≠ x ∧ m.rooms[x]? = some q := by
        intro x q hq
        rw [Std.ExtTreeMap.getElem?_erase] at hq
        split at hq
        · cases hq
        · rename_i hx
          exact ⟨by simpa using hx, hq⟩
      refine ⟨fun x q hq => ?_, fun x y q hx hy => ?_⟩
      · obtain ⟨hx, hr⟩ := hold x q hq
        obtain ⟨room, hroom⟩ := hv.live x q hr
        have hne : p ≠ q := fun he => hx (hv.inj k x p hk (he ▸ hr))
        exact ⟨room, by simpa [hne] using hroom⟩
      · exact hv.inj x y q (hold x q hx).2 (hold y q hy).2

theorem service_send (m : Joins) (s : Int) (data : Reply) :
    m.service.send s data = (m.send s data).map fun x => (x.1.service, x.2) := by
  simp only [Service.send, Joins.send, Option.map_map]
  rfl

theorem service_accept (m : Joins) (s : Int) (k : String) (resp : Reply) (tick : UInt64) :
    m.service.accept s k resp tick =
      (m.accept s k resp tick).map fun x => (x.1.service, x.2) := by
  simp only [Service.accept, Joins.accept, service_send, Option.bind_eq_bind, Option.map_bind,
    Option.bind_map, Function.comp_def, Option.pure_def, Option.map_some]
  rfl

-- The last step of a call: the answer.
theorem solo_reply {resp : Reply} (hc : m.call s = some (.reply resp))
    (hw : m.service.send s resp = some (w, out)) :
    ∃ final, Solo c d s env m out final ∧ final.service = w := by
  rw [service_send] at hw
  obtain ⟨⟨mid, sent⟩, hsend, he⟩ := Option.map_eq_some_iff.mp hw
  cases he
  refine ⟨mid.goto s (.done resp.code), ?_, rfl⟩
  have hs : joinStep c d m (s, env) = some (mid.goto s (.done resp.code), sent) := by
    simp [joinStep, hc, hsend]
  simpa using Solo.next hs (.done resp.code (by simp))

theorem solo_accept {resp : Reply} (hc : m.call s = some (.accept resp))
    (hw : m.service.accept s (c ++ d) resp env.tick = some (w, out)) :
    ∃ final, Solo c d s env m out final ∧ final.service = w := by
  rw [service_accept] at hw
  obtain ⟨⟨mid, sent⟩, haccept, he⟩ := Option.map_eq_some_iff.mp hw
  cases he
  refine ⟨mid.goto s (.done resp.code), ?_, rfl⟩
  have hs : joinStep c d m (s, env) = some (mid.goto s (.done resp.code), sent) := by
    simp [joinStep, hc, haccept]
  simpa using Solo.next hs (.done resp.code (by simp))

-- A step without output, and the rest of the call.
theorem solo_step {mid : Joins} (hs : joinStep c d m (s, env) = some (mid, []))
    (h : ∃ final, Solo c d s env mid out final ∧ final.service = w) :
    ∃ final, Solo c d s env m out final ∧ final.service = w := by
  obtain ⟨final, hrun, hw⟩ := h
  exact ⟨final, .next hs hrun, hw⟩

theorem join_fresh (c d token : String) (s : Int) :
    LiveRoom.join { cmsid := c, devid := d, token } s = newRoom c d token s := by
  simp [LiveRoom.join, newRoom]

-- The room of the camera is created, stored and then announced.
theorem solo_create (hv : m.Owned) {token : String} (hc : m.call s = some (.create token))
    (hw : Service.accept
      { m.service with rooms := m.service.rooms.insert (c ++ d) (newRoom c d token s) } s (c ++ d)
      (joinReply false token (newRoom c d token s).size) env.tick = some (w, out)) :
    ∃ final, Solo c d s env m out final ∧ final.service = w := by
  rw [← hv.service_append] at hw
  have hcreate : joinStep c d m (s, env) = some (m.create s c d token, []) := by
    simp [joinStep, hc]
  have hstore : joinStep c d (m.create s c d token) (s, env) = some (Joins.goto
      ⟨m.connections, m.server, m.rooms.insert (c ++ d) m.heap.length,
        m.heap ++ [some (newRoom c d token s)], (m.create s c d token).calls⟩ s
      (.accept (joinReply false token (newRoom c d token s).size)), []) := by
    simp only [joinStep, Joins.create, join_fresh, Joins.call_goto, if_true]
    rfl
  exact solo_step hcreate (solo_step hstore (solo_accept (by simp) hw))

theorem solo_start (hv : m.Owned) (hc : m.call s = some .start)
    (hw : m.service.startLiveroom s c d env = some (w, out)) :
    ∃ final, Solo c d s env m out final ∧ final.service = w := by
  obtain ⟨⟨next, answered⟩, ha, he⟩ := Option.map_eq_some_iff.mp hw
  obtain ⟨rfl, rfl⟩ := Prod.mk.inj he
  have hs : joinStep c d m (s, env) = some (m.startPlay s c d env) := by simp [joinStep, hc]
  have hrest : ∃ final, Solo c d s env (m.startPlay s c d env).1 answered final ∧
      final.service = next := by
    dsimp only [Joins.startPlay]
    split at ha
    · rename_i hret
      rw [if_pos (show (AdapterServer.notifyStartPush m.server c d env.start).1.ret ≠ 0 from hret)]
      exact solo_reply (by simp; rfl) ha
    · rename_i hret
      rw [if_neg (show ¬ (AdapterServer.notifyStartPush m.server c d env.start).1.ret ≠ 0 from hret)]
      rw [join_fresh] at ha
      exact solo_create ⟨hv.live, hv.inj⟩ (by simp; rfl) ha
  obtain ⟨final, hrun, hfinal⟩ := hrest
  exact ⟨final, .next hs hrun, hfinal⟩

-- The room that plays is joined, and then read for the answer.
theorem solo_found (hv : m.Owned) {p : Nat} {room : LiveRoom} (hc : m.call s = some (.found p))
    (hp : m.rooms[c ++ d]? = some p) (hroom : m.heap[p]? = some (some room))
    (hw : Service.accept
      { m.service with rooms := m.service.rooms.insert (c ++ d) (room.join s) } s (c ++ d)
      (joinReply (room.join s).rdy (room.join s).token (room.join s).size) env.tick =
        some (w, out)) :
    ∃ final, Solo c d s env m out final ∧ final.service = w := by
  have hlt : p < m.heap.length := (List.getElem?_eq_some_iff.mp hroom).1
  rw [← hv.service_set hp] at hw
  have hjoin : joinStep c d m (s, env) = some (Joins.goto
      { m with heap := m.heap.set p (some (room.join s)) } s (.joined p (room.join s).size), []) := by
    simp [joinStep, hc, Joins.joinRoom, hroom]
  have hread : joinStep c d (Joins.goto { m with heap := m.heap.set p (some (room.join s)) } s
      (.joined p (room.join s).size)) (s, env) = some (Joins.goto
        (Joins.goto { m with heap := m.heap.set p (some (room.join s)) } s
          (.joined p (room.join s).size)) s
        (.accept (joinReply (room.join s).rdy (room.join s).token (room.join s).size)), []) := by
    simp [joinStep, Joins.readRoom, hlt]
  exact solo_step hjoin (solo_step hread (solo_accept (by simp) hw))

-- A call that runs alone does what the sequential `join_liveroom` does: the same answers
-- and frames, and the same service afterwards.
theorem joinLiveroom_refines (hv : m.Owned) (hc : m.call s = some .check)
    (hw : m.service.joinLiveroom s c d env = some (w, out)) :
    ∃ final, Solo c d s env m out final ∧ final.service = w := by
  unfold Service.joinLiveroom at hw
  split at hw
  · cases hw
  · rename_i ret hstatus
    have hcheck : joinStep c d m (s, env) = some (m.goto s (.lookup ret), []) := by
      simp only [joinStep, hc, show AdapterServer.checkStatus m.server c d = some ret from hstatus]
      rfl
    have hlookup : joinStep c d (m.goto s (.lookup ret)) (s, env) =
        some ((m.goto s (.lookup ret)).lookup s (c ++ d) ret, []) := by
      simp [joinStep]
    refine solo_step hcheck (solo_step hlookup ?_)
    have hown : (m.goto s (.lookup ret)).Owned := ⟨hv.live, hv.inj⟩
    dsimp only at hw
    unfold Joins.lookup
    split_ifs at hw ⊢ with h100 h102 h200
    · rw [← service_goto m s (.lookup ret), ← hown.service_delete] at hw
      exact solo_reply (by simp) hw
    · rw [← service_goto m s (.lookup ret), ← hown.service_delete] at hw
      exact solo_start ⟨(hown.delete _).live, (hown.delete _).inj⟩ (by simp) hw
    · rw [rooms_service] at hw
      cases hp : m.rooms[c ++ d]? with
      | none =>
          rw [hp] at hw
          simp only [Joins.rooms_goto, hp]
          exact solo_reply (by simp) hw
      | some p =>
          obtain ⟨room, hroom⟩ := hv.live (c ++ d) p hp
          simp only [hp, hroom, Option.bind_some, Option.join_some] at hw
          simp only [Joins.rooms_goto, hp]
          exact solo_found ⟨hv.live, hv.inj⟩ (by simp) hp hroom hw
    · exact solo_reply (by simp) hw

theorem Solo.eq_joinLiveroom (h : Solo c d s env m out' final) (hv : m.Owned)
    (hc : m.call s = some .check) (hw : m.service.joinLiveroom s c d env = some (w, out)) :
    out' = out ∧ final.service = w := by
  obtain ⟨final', h', rfl⟩ := joinLiveroom_refines hv hc hw
  obtain ⟨rfl, rfl⟩ := h.unique h'
  exact ⟨rfl, rfl⟩

end VideoAdapter.Wss

import VideoAdapter.Wss.Calls.Sound

namespace VideoAdapter.Wss

open Adapter
open Service (RequestEnv SweepEnv)

-- What the sequential functions see: the rooms as a search in `rooms_` reaches them.
def Mngr.service (m : Mngr) : Service := m.shared.service

-- One call runs to its end while the others wait.
inductive Alone (i : Nat) (env : RequestEnv) : Mngr → List Output → Mngr → Prop
  | done {m : Mngr} (call : Call) (hc : m.calls[i]? = some call) (hf : call.finished = true) :
      Alone i env m [] m
  | next {m mid final : Mngr} {shown : Shown} {outs : List Output}
      (hs : callStep m (.advance i env) = some (mid, shown)) (rest : Alone i env mid outs final) :
      Alone i env m (shown.out ++ outs) final

-- The room that the next step of the state thread is about.
def Sweeper.current : Sweeper → String
  | .visit (key :: _) => key
  | .reap key _ => key
  | _ => ""

-- The state thread ends its sweep while all calls wait.
inductive Sweeps (env : String → SweepEnv) : Mngr → List Output → Mngr → Prop
  | done {m : Mngr} (hs : m.sweeper = .idle) : Sweeps env m [] m
  | next {m mid final : Mngr} {shown : Shown} {outs : List Output}
      (hs : callStep m (.sweep (env m.sweeper.current)) = some (mid, shown))
      (rest : Sweeps env mid outs final) : Sweeps env m (shown.out ++ outs) final

variable {m mid after final final' : Mngr} {i : Nat} {s : Int} {c d token key : String}
  {env : RequestEnv} {shown : Shown} {out out' : List Output} {w : Service} {p : Nat}
  {room : LiveRoom}

theorem advance_finished {call : Call} (hc : m.calls[i]? = some call) (hf : call.finished = true) :
    callStep m (.advance i env) = none := by
  simp only [callStep, Mngr.advance, hc]
  cases call with
  | join s c d pc =>
      cases pc with
      | done code =>
          simp only [Mngr.advanceJoin, joinStep, Joins.call_goto, if_true, Option.map_none,
            ite_self]
      | _ => cases hf
  | quit s c d pc =>
      cases pc with
      | done => rfl
      | _ => cases hf
  | hls token pc =>
      cases pc with
      | done q => rfl
      | _ => cases hf

-- The steps of one call are determined by what the world contributes.
theorem Alone.unique (h : Alone i env m out final) (h' : Alone i env m out' final') :
    out = out' ∧ final = final' := by
  induction h generalizing out' with
  | done call hc hf =>
      cases h' with
      | done _ _ _ => exact ⟨rfl, rfl⟩
      | next hs _ => simp [advance_finished hc hf] at hs
  | next hs _ ih =>
      cases h' with
      | done call hc hf => simp [advance_finished hc hf] at hs
      | next hs' rest' =>
          rw [hs] at hs'
          cases hs'
          obtain ⟨rfl, rfl⟩ := ih rest'
          exact ⟨rfl, rfl⟩

-- A step without output, and the rest of the call.
theorem alone_step {region : Option Region}
    (hs : callStep m (.advance i env) = some (mid, { region }))
    (h : ∃ final, Alone i env mid out final ∧ final.service = w) :
    ∃ final, Alone i env m out final ∧ final.service = w := by
  obtain ⟨final, hrun, hw⟩ := h
  exact ⟨final, .next hs hrun, hw⟩

-- The last step of a call.
theorem alone_last {call : Call} {region : Option Region}
    (hs : callStep m (.advance i env) = some (mid.goto i call, { region, out }))
    (hlt : i < mid.calls.length) (hf : call.finished = true) (hw : mid.service = w) :
    ∃ final, Alone i env m out final ∧ final.service = w := by
  have hc : (mid.goto i call).calls[i]? = some call := by simp [Mngr.goto, hlt]
  refine ⟨mid.goto i call, ?_, hw⟩
  simpa using Alone.next hs (.done call hc hf)

theorem Mngr.Sound.owned (h : m.Sound) : m.shared.Owned where
  live := by
    intro k p hp
    obtain ⟨room, hroom⟩ := h.live k p hp
    exact ⟨room, heap_of_room hroom⟩
  inj := h.inj

theorem rooms_mngr_service (m : Mngr) (k : String) :
    m.service.rooms[k]? = m.rooms[k]?.bind m.room := rooms_service m.shared k

theorem getElem?_goto_self {call : Call} (hc : m.calls[i]? = some call) (call' : Call) :
    (m.goto i call').calls[i]? = some call' := by
  have hlt : i < m.calls.length := (List.getElem?_eq_some_iff.mp hc).1
  simp [Mngr.goto, hlt]

-- The answer of a quit.
theorem alone_quit_reply (hc : m.calls[i]? = some (.quit s c d .reply))
    (hw : m.service.send s stopReply = some (w, out)) :
    ∃ final, Alone i env m out final ∧ final.service = w := by
  rw [Mngr.service, service_send] at hw
  obtain ⟨⟨j, sent⟩, hsend, he⟩ := Option.map_eq_some_iff.mp hw
  cases he
  have hs : callStep m (.advance i env) =
      some ((m.withShared j).goto i (.quit s c d .done), { out := sent }) := by
    simp [callStep, Mngr.advance, hc, Mngr.advanceQuit, hsend]
  exact alone_last hs (List.getElem?_eq_some_iff.mp hc).1 rfl rfl

-- The room is written through the pointer that its key leads to.
theorem service_write (hv : m.shared.Owned) (hp : m.rooms[key]? = some p) (room : LiveRoom) :
    (m.write p room).service = { m.service with rooms := m.service.rooms.insert key room } :=
  hv.service_set hp room

theorem service_delete (hv : m.shared.Owned) (key : String) :
    (m.delete key).service = { m.service with rooms := m.service.rooms.erase key } :=
  hv.service_delete key

theorem alone_quit_clear (hc : m.calls[i]? = some (.quit s c d .clear))
    (hw : ((m.connections.setValue s "roomid" "").bind fun connections =>
      Service.send { m.service with connections } s stopReply) = some (w, out)) :
    ∃ final, Alone i env m out final ∧ final.service = w := by
  obtain ⟨connections, hset, hsend⟩ := Option.bind_eq_some_iff.mp hw
  have hs : callStep m (.advance i env) =
      some (Mngr.goto { m with connections } i (.quit s c d .reply), {}) := by
    simp [callStep, Mngr.advance, hc, Mngr.advanceQuit, hset]
  have hc1 := getElem?_goto_self (m := { m with connections }) hc (.quit s c d .reply)
  exact alone_step hs (alone_quit_reply hc1 hsend)

theorem alone_quit_found (hv : m.shared.Owned) (hc : m.calls[i]? = some (.quit s c d (.found p)))
    (hp : m.rooms[c ++ d]? = some p) (hroom : m.room p = some room)
    (hw : ((m.connections.setValue s "roomid" "").bind fun connections =>
      Service.send { m.service with
        connections
        rooms := m.service.rooms.insert (c ++ d) (room.quit s env.tick) } s stopReply) =
        some (w, out)) :
    ∃ final, Alone i env m out final ∧ final.service = w := by
  have hs : callStep m (.advance i env) =
      some ((m.write p (room.quit s env.tick)).goto i (.quit s c d .clear), {}) := by
    simp [callStep, Mngr.advance, hc, Mngr.advanceQuit, hroom]
  have hwrite : ((m.write p (room.quit s env.tick)).goto i (.quit s c d .clear)).service =
      { m.service with rooms := m.service.rooms.insert (c ++ d) (room.quit s env.tick) } :=
    service_write hv hp _
  refine alone_step hs (alone_quit_clear (getElem?_goto_self (m := m.write p _) hc _) ?_)
  rw [hwrite]
  exact hw

theorem alone_quit_absent (hfree : m.sweeper.holds = false)
    (hc : m.calls[i]? = some (.quit s c d (.lookup 200))) (hp : m.rooms[c ++ d]? = none)
    (hw : m.service.send s stopReply = some (w, out)) :
    ∃ final, Alone i env m out final ∧ final.service = w := by
  have hs : callStep m (.advance i env) = some (m.goto i (.quit s c d .reply),
      { region := some (.lookup (c ++ d)) }) := by
    simp [callStep, Mngr.advance, hc, Mngr.advanceQuit, hfree, hp]
  exact alone_step hs (alone_quit_reply (getElem?_goto_self hc _) hw)

theorem alone_quit_present (hfree : m.sweeper.holds = false)
    (hc : m.calls[i]? = some (.quit s c d (.lookup 200))) (hp : m.rooms[c ++ d]? = some p)
    (h : ∃ final, Alone i env (m.goto i (.quit s c d (.found p))) out final ∧ final.service = w) :
    ∃ final, Alone i env m out final ∧ final.service = w := by
  have hs : callStep m (.advance i env) = some (m.goto i (.quit s c d (.found p)),
      { region := some (.lookup (c ++ d)) }) := by
    simp [callStep, Mngr.advance, hc, Mngr.advanceQuit, hfree, hp]
  exact alone_step hs h

theorem alone_quit_refused (hv : m.shared.Owned) (hfree : m.sweeper.holds = false) {ret : Int}
    (hc : m.calls[i]? = some (.quit s c d (.lookup ret))) (hret : ret ≠ 200)
    (hw : Service.send { m.service with rooms := m.service.rooms.erase (c ++ d) } s stopReply =
      some (w, out)) :
    ∃ final, Alone i env m out final ∧ final.service = w := by
  rw [← service_delete hv] at hw
  have hs : callStep m (.advance i env) = some ((m.delete (c ++ d)).goto i (.quit s c d .reply),
      { region := some (.lookup (c ++ d)) }) := by
    simp only [callStep, Mngr.advance, hc, Mngr.advanceQuit, hfree, if_neg hret]
    rfl
  exact alone_step hs (alone_quit_reply (getElem?_goto_self (m := m.delete (c ++ d)) hc _) hw)

-- A quit that runs alone does what the sequential `quit_liveroom` does.
theorem quitLiveroom_alone (hv : m.shared.Owned) (hfree : m.sweeper.holds = false)
    (hc : m.calls[i]? = some (.quit s c d .check))
    (hw : m.service.quitLiveroom s c d env = some (w, out)) :
    ∃ final, Alone i env m out final ∧ final.service = w := by
  unfold Service.quitLiveroom at hw
  split at hw
  · cases hw
  · rename_i ret hstatus
    have hs : callStep m (.advance i env) = some (m.goto i (.quit s c d (.lookup ret)), {}) := by
      simp [callStep, Mngr.advance, hc, Mngr.advanceQuit,
        show AdapterServer.checkStatus m.server c d = some ret from hstatus]
    have hc1 := getElem?_goto_self hc (.quit s c d (.lookup ret))
    refine alone_step hs ?_
    split at hw
    · rename_i h200
      subst h200
      rw [rooms_mngr_service] at hw
      cases hp : m.rooms[c ++ d]? with
      | none =>
          rw [hp] at hw
          exact alone_quit_absent (m := m.goto i _) hfree hc1 hp hw
      | some p =>
          obtain ⟨room, hheap⟩ := hv.live _ p hp
          have hroom : m.room p = some room := room_of_heap hheap
          rw [hp, Option.bind_some, hroom] at hw
          refine alone_quit_present (m := m.goto i _) hfree hc1 hp ?_
          exact alone_quit_found (m := Mngr.goto _ i _) hv (getElem?_goto_self hc1 _) hp hroom hw
    · rename_i h200
      exact alone_quit_refused (m := m.goto i _) hv hfree hc1 h200 hw

-- A search by pointers finds the room that the sequential search finds.
theorem find_service (m : Mngr) (token : String) :
    (m.service.rooms.toList.find? fun entry => entry.2.token = token) =
      (m.rooms.toList.find? fun entry => (m.room entry.2).any (·.token = token)).bind
        fun entry => (m.room entry.2).map (entry.1, ·) := by
  simp only [Mngr.service, Joins.service, Std.ExtTreeMap.toList_filterMap, List.find?_filterMap,
    Option.any_map]
  rfl

theorem broadcast_service (data : Reply) (users : List Int) (j : Joins) :
    Service.broadcast data users j.service =
      (Joins.broadcast data users j).map fun r => (r.1.service, r.2) := by
  induction users generalizing j with
  | nil => rfl
  | cons user rest ih =>
      simp only [Service.broadcast, Joins.broadcast, service_send, Option.bind_eq_bind,
        Option.map_bind, Option.bind_map, Function.comp_def, ih, Option.map_map, Option.pure_def]
      refine Option.bind_congr fun sent _ => ?_
      exact Option.map_eq_bind.symm

theorem alone_hls_broadcast {isize : Nat}
    (hc : m.calls[i]? = some (.hls token (.broadcast p isize))) (hroom : m.room p = some room)
    (hw : Service.broadcast (joinReply true room.token isize) room.users m.service =
      some (w, out)) :
    ∃ final, Alone i env m out final ∧ final.service = w := by
  rw [Mngr.service, broadcast_service] at hw
  obtain ⟨⟨j, sent⟩, hall, he⟩ := Option.map_eq_some_iff.mp hw
  cases he
  have hs : callStep m (.advance i env) =
      some ((m.withShared j).goto i (.hls token (.done (some p))), { out := sent }) := by
    simp [callStep, Mngr.advance, hc, Mngr.advanceHls, hroom, hall]
  exact alone_last hs (List.getElem?_eq_some_iff.mp hc).1 rfl rfl

-- The flag is set, the viewers are counted and then told.
theorem alone_hls_ready (hv : m.shared.Owned) (hc : m.calls[i]? = some (.hls token (.ready p)))
    (hp : m.rooms[key]? = some p) (hroom : m.room p = some room)
    (hw : Service.broadcast (joinReply true room.token room.size) room.users
      { m.service with rooms := m.service.rooms.insert key { room with rdy := true } } =
        some (w, out)) :
    ∃ final, Alone i env m out final ∧ final.service = w := by
  rw [← service_write hv hp] at hw
  have hready : callStep m (.advance i env) =
      some ((m.write p { room with rdy := true }).goto i (.hls token (.size p)), {}) := by
    simp [callStep, Mngr.advance, hc, Mngr.advanceHls, hroom]
  have hwritten : (m.write p { room with rdy := true }).room p =
      some { room with rdy := true } := by
    rw [room_write hroom, if_pos rfl]
  have hc1 : ((m.write p { room with rdy := true }).goto i (.hls token (.size p))).calls[i]? =
      some (.hls token (.size p)) := getElem?_goto_self (m := m.write p _) hc _
  have hsize : callStep ((m.write p { room with rdy := true }).goto i (.hls token (.size p)))
      (.advance i env) = some (((m.write p { room with rdy := true }).goto i
        (.hls token (.size p))).goto i (.hls token (.broadcast p room.size)), {}) := by
    simp only [callStep, Mngr.advance, hc1, Mngr.advanceHls]
    exact congrArg (Option.map _) hwritten
  refine alone_step hready (alone_step hsize ?_)
  exact alone_hls_broadcast (m := (Mngr.goto _ i _).goto i _) (getElem?_goto_self hc1 _) hwritten hw

-- A `NotifyHls` that runs alone does what the sequential function does.
theorem notifyHls_alone (hv : m.shared.Owned) (hfree : m.sweeper.holds = false)
    (hc : m.calls[i]? = some (.hls token .search))
    (hw : m.service.notifyHls token = some (w, out)) :
    ∃ final, Alone i env m out final ∧ final.service = w := by
  have hfind := find_service m token
  unfold Service.notifyHls at hw
  cases hentry : m.rooms.toList.find? fun entry => (m.room entry.2).any (·.token = token) with
  | none =>
      rw [hentry, Option.bind_none] at hfind
      simp only [hfind] at hw
      cases hw
      have hs : callStep m (.advance i env) = some (m.goto i (.hls token (.done none)),
          { region := some (.search token) }) := by
        simp [callStep, Mngr.advance, hc, Mngr.advanceHls, hfree, Mngr.search, hentry]
      exact alone_last hs (List.getElem?_eq_some_iff.mp hc).1 rfl rfl
  | some entry =>
      obtain ⟨key, p⟩ := entry
      have hp : m.rooms[key]? = some p :=
        Std.ExtTreeMap.mem_toList_iff_getElem?_eq_some.mp (List.mem_of_find?_eq_some hentry)
      obtain ⟨room, hheap⟩ := hv.live key p hp
      have hroom : m.room p = some room := room_of_heap hheap
      rw [hentry, Option.bind_some] at hfind
      simp only [hroom, Option.map_some] at hfind
      simp only [hfind] at hw
      have hs : callStep m (.advance i env) = some (m.goto i (.hls token (.ready p)),
          { region := some (.search token) }) := by
        simp [callStep, Mngr.advance, hc, Mngr.advanceHls, hfree, Mngr.search, hentry]
      have hc1 := getElem?_goto_self hc (.hls token (.ready p))
      exact alone_step hs (alone_hls_ready (m := m.goto i _) hv hc1 hp hroom hw)

-- A step of a join leaves one call, its own, in the state of a single call.
theorem joinStep_calls {j j' : Joins} (pc : Pc)
    (hj : j.calls = (∅ : Std.ExtTreeMap Int Pc).insert s pc)
    (hs : joinStep c d j (s, env) = some (j', out)) :
    ∃ pc', j'.call s = some pc' ∧ j'.calls = (∅ : Std.ExtTreeMap Int Pc).insert s pc' := by
  obtain ⟨_, -, hmove⟩ := joinStep_move hs
  obtain ⟨pc', hpc'⟩ : ∃ pc', j'.call s = some pc' := by
    cases hmove <;> simp [Joins.create]
  refine ⟨pc', hpc', Std.ExtTreeMap.ext_getElem? fun {x} => ?_⟩
  rw [Std.ExtTreeMap.getElem?_insert]
  by_cases hx : s = x
  · subst hx
    simpa [Joins.call] using hpc'
  · have hother : j'.call x = j.call x := hmove.other (Ne.symm hx)
    simpa [Joins.call, hj, Std.ExtTreeMap.getElem?_insert, hx] using hother

-- The steps that a join takes alone among joins for its camera are steps among all calls.
theorem Solo.alone {j last : Joins} (h : Solo c d s env j out last) {pc : Pc}
    (hj : j = m.shared.goto s pc) (hfree : m.sweeper.holds = false)
    (hc : m.calls[i]? = some (.join s c d pc)) :
    ∃ final, Alone i env m out final ∧ final.service = last.service := by
  induction h generalizing m pc with
  | done code hd =>
      subst hj
      obtain rfl : pc = .done code := by simpa using hd
      exact ⟨m, .done _ hc rfl, rfl⟩
  | @next j mid last out outs hs rest ih =>
      subst hj
      obtain ⟨pc', hpc', hcalls⟩ := joinStep_calls pc rfl hs
      have hstep : callStep m (.advance i env) =
          some ((m.withShared mid).goto i (.join s c d pc'),
            { region := pc.region (c ++ d), out }) := by
        simp [callStep, Mngr.advance, hc, Mngr.advanceJoin, hfree, hs, hpc']
      have hnext : mid = ((m.withShared mid).goto i (.join s c d pc')).shared.goto s pc' := by
        cases mid
        simp only at hcalls
        subst hcalls
        rfl
      have hlt : i < m.calls.length := (List.getElem?_eq_some_iff.mp hc).1
      obtain ⟨final, hrun, hfinal⟩ := ih hnext hfree (by simp [Mngr.goto, Mngr.withShared, hlt])
      exact ⟨final, .next hstep hrun, hfinal⟩

-- A join that runs alone does what the sequential `join_liveroom` does.
theorem joinLiveroom_alone (hv : m.shared.Owned) (hfree : m.sweeper.holds = false)
    (hc : m.calls[i]? = some (.join s c d .check))
    (hw : m.service.joinLiveroom s c d env = some (w, out)) :
    ∃ final, Alone i env m out final ∧ final.service = w := by
  have hown : (m.shared.goto s .check).Owned := ⟨hv.live, hv.inj⟩
  obtain ⟨last, hsolo, rfl⟩ := joinLiveroom_refines hown (by simp) hw
  exact hsolo.alone rfl hfree hc

-- What the sequential functions do for a call that has just begun.
def Call.sequential (w : Service) (env : RequestEnv) : Call → Option (Service × List Output)
  | .join s c d .check => w.joinLiveroom s c d env
  | .quit s c d .check => w.quitLiveroom s c d env
  | .hls token .search => w.notifyHls token
  | _ => none

-- A call that runs alone ends, with the answers and frames of the sequential function and the
-- same service afterwards.
theorem call_alone (hsound : m.Sound) (hfree : m.sweeper.holds = false) {call : Call}
    (hc : m.calls[i]? = some call) (hw : call.sequential m.service env = some (w, out)) :
    (∃ final, Alone i env m out final) ∧
      ∀ out' final, Alone i env m out' final → out' = out ∧ final.service = w := by
  obtain ⟨final, hrun, hfinal⟩ : ∃ final, Alone i env m out final ∧ final.service = w := by
    cases call with
    | join s c d pc =>
        cases pc with
        | check => exact joinLiveroom_alone hsound.owned hfree hc hw
        | _ => cases hw
    | quit s c d pc =>
        cases pc with
        | check => exact quitLiveroom_alone hsound.owned hfree hc hw
        | _ => cases hw
    | hls token pc =>
        cases pc with
        | search => exact notifyHls_alone hsound.owned hfree hc hw
        | _ => cases hw
  refine ⟨⟨final, hrun⟩, fun out' final' hrun' => ?_⟩
  obtain ⟨rfl, rfl⟩ := hrun'.unique hrun
  exact ⟨rfl, hfinal⟩

-- The state after a room was stopped and deleted.
def Mngr.reap (m : Mngr) (key : String) (rest : List String) (server : TcpServer) : Mngr :=
  { m.delete key with server, sweeper := .visit rest }

theorem service_reap (hv : m.shared.Owned) (key : String) (rest : List String)
    (server : TcpServer) : (m.reap key rest server).service =
      { m.service with rooms := m.service.rooms.erase key, server } :=
  congrArg (fun w : Service => { w with server }) (service_delete hv key)

theorem owned_reap (hv : m.shared.Owned) (key : String) (rest : List String) (server : TcpServer) :
    (m.reap key rest server).shared.Owned := ⟨(hv.delete key).live, (hv.delete key).inj⟩

theorem mem_rooms_reap {k : String} (hk : k ∈ m.rooms) (hne : k ≠ key) (rest : List String)
    (server : TcpServer) : k ∈ (m.reap key rest server).rooms := by
  have hget : (m.reap key rest server).rooms[k]? = m.rooms[k]? :=
    (rooms_delete m key k).trans (if_neg hne)
  rwa [Std.ExtTreeMap.mem_iff_isSome_getElem?, hget, ← Std.ExtTreeMap.mem_iff_isSome_getElem?]

-- A room that is due is stopped and deleted in the step after the one that looked at it.
theorem sweeps_visit (env : String → SweepEnv) (keys : List String) (hv : m.shared.Owned)
    (hs : m.sweeper = .visit keys) (hnodup : keys.Nodup) (hkeys : ∀ k ∈ keys, k ∈ m.rooms) :
    ∃ final, Sweeps env m (Service.sweepLoop env keys m.service).2 final ∧
      final.service = (Service.sweepLoop env keys m.service).1 := by
  induction keys generalizing m with
  | nil =>
      refine ⟨{ m with sweeper := .idle }, ?_, rfl⟩
      have hstep : callStep m (.sweep (env m.sweeper.current)) =
          some ({ m with sweeper := .idle }, {}) := by
        simp [callStep, Mngr.sweep, hs]
      exact Sweeps.next hstep (.done rfl)
  | cons key rest ih =>
      obtain ⟨hfresh, hrest⟩ := List.nodup_cons.mp hnodup
      have hleft : ∀ k ∈ rest, k ∈ m.rooms := fun k hk => hkeys k (List.mem_cons_of_mem _ hk)
      obtain ⟨p, hp⟩ := Option.isSome_iff_exists.mp
        (Std.ExtTreeMap.mem_iff_isSome_getElem?.mp (hkeys key List.mem_cons_self))
      obtain ⟨room, hheap⟩ := hv.live key p hp
      have hroom : m.room p = some room := room_of_heap hheap
      have hservice : m.service.rooms[key]? = some room := by
        rw [rooms_mngr_service, hp, Option.bind_some, hroom]
      have hvisit : callStep m (.sweep (env m.sweeper.current)) =
          some (if room.size = 0 ∧ (env key).tick - room.timestamp > 60 * 1000
            then ({ m with sweeper := .reap key rest }, {})
            else ({ m with sweeper := .visit rest }, {})) := by
        rw [show m.sweeper.current = key by simp [hs, Sweeper.current]]
        simp only [callStep, Mngr.sweep, hs, hp, Option.bind_some, hroom, Option.map_some]
      unfold Service.sweepLoop
      simp only [hservice]
      split
      · rename_i hdue
        rw [if_pos hdue] at hvisit
        let stop := AdapterServer.notifyStopPush m.server room.cmsid room.devid (env key).stop
        have hreap : callStep { m with sweeper := .reap key rest } (.sweep (env key)) =
            some (m.reap key rest stop.2.1,
              { out := .stopPlay room.cmsid room.devid :: stop.2.2.map .sent }) := by
          simp only [callStep, Mngr.sweep, hp, Option.bind_some]
          exact congrArg (Option.map _) hroom
        have hleft' : ∀ k ∈ rest, k ∈ (m.reap key rest stop.2.1).rooms := by
          intro k hk
          have hne : k ≠ key := fun he => hfresh (he ▸ hk)
          exact mem_rooms_reap (hleft k hk) hne rest stop.2.1
        obtain ⟨final, hrun, hfinal⟩ := ih (owned_reap hv key rest stop.2.1) rfl hrest hleft'
        rw [service_reap hv] at hrun hfinal
        exact ⟨final, Sweeps.next hvisit (Sweeps.next hreap hrun), hfinal⟩
      · rename_i hdue
        rw [if_neg hdue] at hvisit
        obtain ⟨final, hrun, hfinal⟩ :=
          ih (m := { m with sweeper := .visit rest }) hv rfl hrest hleft
        exact ⟨final, .next hvisit hrun, hfinal⟩

theorem keys_service (hv : m.shared.Owned) : m.service.rooms.keys = m.rooms.keys := by
  simp only [← Std.ExtTreeMap.map_fst_toList_eq_keys, Mngr.service, Joins.service,
    Std.ExtTreeMap.toList_filterMap, List.map_filterMap]
  refine (List.filterMap_congr fun entry hm => ?_).trans (congrFun List.filterMap_eq_map _)
  obtain ⟨room, hroom⟩ := hv.live _ _ (Std.ExtTreeMap.mem_toList_iff_getElem?_eq_some.mp hm)
  simp [hroom]

-- A sweep during which all calls wait does what the sequential room sweep does.
theorem sweep_alone (hv : m.shared.Owned) (hs : m.sweeper = .idle) (env : String → SweepEnv) :
    ∃ mid final, callStep m (.sweep (env m.sweeper.current)) = some (mid, {}) ∧
      Sweeps env mid (m.service.sweep env).2 final ∧ final.service = (m.service.sweep env).1 := by
  have hstart : callStep m (.sweep (env m.sweeper.current)) =
      some ({ m with sweeper := .visit m.rooms.keys }, {}) := by
    simp [callStep, Mngr.sweep, hs]
  unfold Service.sweep
  rw [keys_service hv]
  obtain ⟨final, hrun, hfinal⟩ := sweeps_visit (m := { m with sweeper := .visit m.rooms.keys }) env
    m.rooms.keys hv rfl Std.ExtTreeMap.nodup_keys fun k hk => Std.ExtTreeMap.mem_keys.mp hk
  exact ⟨_, final, hstart, hrun, hfinal⟩

theorem quitRoom_of_none (hk : w.rooms[key]? = none) (s : Int) (tick : UInt64) :
    w.quitRoom s key tick = w := by
  unfold Service.quitRoom
  split
  · rfl
  · have hrooms : (w.rooms.modify key fun pRoom => pRoom.quit s tick) = w.rooms := by
      refine Std.ExtTreeMap.ext_getElem? fun {k} => ?_
      rw [Std.ExtTreeMap.getElem?_modify]
      split
      · rename_i he
        rw [← Std.compare_eq_iff_eq.mp he, hk]
        rfl
      · rfl
    rw [hrooms]

theorem quitRoom_of_room (hkey : key ≠ "") (hk : w.rooms[key]? = some room) (s : Int)
    (tick : UInt64) :
    w.quitRoom s key tick = { w with rooms := w.rooms.insert key (room.quit s tick) } := by
  unfold Service.quitRoom
  rw [if_neg hkey]
  have hrooms : (w.rooms.modify key fun pRoom => pRoom.quit s tick) =
      w.rooms.insert key (room.quit s tick) := by
    refine Std.ExtTreeMap.ext_getElem? fun {k} => ?_
    rw [Std.ExtTreeMap.getElem?_modify, Std.ExtTreeMap.getElem?_insert, hk]
    rfl
  rw [hrooms]

-- What `onTimeout` and `onDisconnect` do under `roomlock_` is what the sequential body does.
theorem leave_alone (hv : m.shared.Owned) (hfree : m.sweeper.holds = false) (s : Int)
    (roomid : String) (tick : UInt64) :
    ∃ after, callStep m (.leave s roomid tick) = some (after, {}) ∧
      after.service = m.service.quitRoom s roomid tick := by
  by_cases hempty : roomid = ""
  · subst hempty
    exact ⟨m, by simp [callStep, Mngr.leave, hfree], rfl⟩
  · have hlookup := rooms_mngr_service m roomid
    cases hp : m.rooms[roomid]? with
    | none =>
        rw [hp] at hlookup
        exact ⟨m, by simp [callStep, Mngr.leave, hfree, hp], (quitRoom_of_none hlookup s tick).symm⟩
    | some p =>
        obtain ⟨room, hheap⟩ := hv.live roomid p hp
        have hroom : m.room p = some room := room_of_heap hheap
        rw [hp, Option.bind_some, hroom] at hlookup
        refine ⟨m.write p (room.quit s tick), ?_, ?_⟩
        · simp [callStep, Mngr.leave, hfree, hempty, hp, hroom]
        · rw [service_write hv hp, quitRoom_of_room hempty hlookup]

-- The steps of a close: the room of the socket is left, and the connection removed.
theorem onDisconnectWrapper_alone (hv : m.shared.Owned) (hfree : m.sweeper.holds = false)
    {tick : UInt64} (hw : m.service.onDisconnectWrapper s tick = some w) :
    ∃ roomid mid after, m.connections.getValue s "roomid" = some roomid ∧
      callStep m (.leave s roomid tick) = some (mid, {}) ∧
      callStep mid (.removeConnection s) = some (after, {}) ∧ after.service = w := by
  obtain ⟨roomid, hvalue, he⟩ := Option.bind_eq_some_iff.mp hw
  cases he
  obtain ⟨mid, hleave, hmid⟩ := leave_alone hv hfree s roomid tick
  refine ⟨roomid, mid, _, hvalue, hleave, rfl, ?_⟩
  rw [← hmid]
  rfl

end VideoAdapter.Wss

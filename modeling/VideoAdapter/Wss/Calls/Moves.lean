import VideoAdapter.Wss.Calls
import VideoAdapter.Wss.Join.Refinement
import VideoAdapter.Wss.View.Refinement

namespace VideoAdapter.Wss

open Adapter Lib
open Service (RequestEnv SweepEnv)

-- `delete p; rooms_.erase(it)`
def Mngr.delete (m : Mngr) (key : String) : Mngr := m.withShared (m.shared.delete key)

-- The key whose entry in `rooms_` the next step of the call erases or replaces.
def Call.takes : Call → Option String
  | .join _ c d (.lookup ret) => if ret = 100 ∨ ret = 101 ∨ ret = 102 then some (c ++ d) else none
  | .join _ c d (.store _ _) => some (c ++ d)
  | .quit _ c d (.lookup ret) => if ret = 200 then none else some (c ++ d)
  | _ => none

def Mngr.takes (m : Mngr) : CallEvent → Option String
  | .advance i _ => m.calls[i]?.bind Call.takes
  | .sweep _ =>
      match m.sweeper with
      | .reap key _ => some key
      | _ => none
  | _ => none

-- The call that an event begins.
def CallEvent.begins : CallEvent → Option Call
  | .join s c d => some (.join s c d .check)
  | .quit s c d => some (.quit s c d .check)
  | .notifyHls token => some (.hls token .search)
  | _ => none

-- Everything one step of a call can do: to the rooms and the heap, and to the call itself.
inductive Move (m : Mngr) : Call → Mngr → Call → List Output → Prop
  | joinChecked (s : Int) (c d : String) (ret : Int) (out : List Output)
      (hret : ret = 100 ∨ ret = 101 ∨ ret = 102 ∨ ret = 200) :
      Move m (.join s c d .check) m (.join s c d (.lookup ret)) out
  | joinRefused (s : Int) (c d : String) (ret : Int) (pc : Pc) (out : List Output)
      (hret : ret = 100 ∨ ret = 101 ∨ ret = 102) (hpc : pc = .reply offlineReply ∨ pc = .start) :
      Move m (.join s c d (.lookup ret)) (m.delete (c ++ d)) (.join s c d pc) out
  | joinFound (s : Int) (c d : String) (p : Nat) (out : List Output)
      (hr : m.rooms[c ++ d]? = some p) :
      Move m (.join s c d (.lookup 200)) m (.join s c d (.found p)) out
  | joinUnexpected (s : Int) (c d : String) (ret : Int) (out : List Output)
      (hret : ret ≠ 100 ∧ ret ≠ 101 ∧ ret ≠ 102) (hr : ret = 200 → m.rooms[c ++ d]? = none) :
      Move m (.join s c d (.lookup ret)) m (.join s c d (.reply unexpectedReply)) out
  | joinStarted (s : Int) (c d : String) (server : TcpServer) (pc : Pc) (out : List Output)
      (hpc : (∃ result, pc = .reply (failReply result)) ∨ ∃ token, pc = .create token) :
      Move m (.join s c d .start) { m with server } (.join s c d pc) out
  | joinCreated (s : Int) (c d token : String) (out : List Output) :
      Move m (.join s c d (.create token)) { m with heap := m.heap ++ [some (newRoom c d token s)] }
        (.join s c d (.store m.heap.length (joinReply false token 1))) out
  | joinStored (s : Int) (c d : String) (p : Nat) (resp : Reply) (out : List Output) :
      Move m (.join s c d (.store p resp)) { m with rooms := m.rooms.insert (c ++ d) p }
        (.join s c d (.accept resp)) out
  | joinJoined (s : Int) (c d : String) (p : Nat) (room : LiveRoom) (out : List Output)
      (hp : m.room p = some room) :
      Move m (.join s c d (.found p)) (m.write p (room.join s))
        (.join s c d (.joined p (room.join s).size)) out
  | joinRead (s : Int) (c d : String) (p count : Nat) (room : LiveRoom) (out : List Output)
      (hp : m.room p = some room) :
      Move m (.join s c d (.joined p count)) m
        (.join s c d (.accept (joinReply room.rdy room.token count))) out
  | joinReplied (s : Int) (c d : String) (resp : Reply) (connections : Connections)
      (out : List Output) : Move m (.join s c d (.reply resp)) { m with connections }
        (.join s c d (.done resp.code)) out
  | joinAccepted (s : Int) (c d : String) (resp : Reply) (connections : Connections)
      (out : List Output) (hout : m.connections.registered s = true → .reply s resp ∈ out) :
      Move m (.join s c d (.accept resp)) { m with connections } (.join s c d (.done resp.code)) out
  | quitChecked (s : Int) (c d : String) (ret : Int) (out : List Output) :
      Move m (.quit s c d .check) m (.quit s c d (.lookup ret)) out
  | quitFound (s : Int) (c d : String) (p : Nat) (out : List Output)
      (hr : m.rooms[c ++ d]? = some p) :
      Move m (.quit s c d (.lookup 200)) m (.quit s c d (.found p)) out
  | quitAbsent (s : Int) (c d : String) (out : List Output) :
      Move m (.quit s c d (.lookup 200)) m (.quit s c d .reply) out
  | quitRefused (s : Int) (c d : String) (ret : Int) (out : List Output) (hret : ret ≠ 200) :
      Move m (.quit s c d (.lookup ret)) (m.delete (c ++ d)) (.quit s c d .reply) out
  | quitQuit (s : Int) (c d : String) (p : Nat) (room : LiveRoom) (tick : UInt64)
      (out : List Output) (hp : m.room p = some room) :
      Move m (.quit s c d (.found p)) (m.write p (room.quit s tick)) (.quit s c d .clear) out
  | quitCleared (s : Int) (c d : String) (connections : Connections) (out : List Output) :
      Move m (.quit s c d .clear) { m with connections } (.quit s c d .reply) out
  | quitReplied (s : Int) (c d : String) (connections : Connections) (out : List Output) :
      Move m (.quit s c d .reply) { m with connections } (.quit s c d .done) out
  | hlsFound (token : String) (p : Nat) (out : List Output) (hp : m.search token = some p) :
      Move m (.hls token .search) m (.hls token (.ready p)) out
  | hlsAbsent (token : String) (out : List Output) (hp : m.search token = none) :
      Move m (.hls token .search) m (.hls token (.done none)) out
  | hlsReady (token : String) (p : Nat) (room : LiveRoom) (out : List Output)
      (hp : m.room p = some room) :
      Move m (.hls token (.ready p)) (m.write p { room with rdy := true }) (.hls token (.size p)) out
  | hlsSized (token : String) (p : Nat) (room : LiveRoom) (out : List Output)
      (hp : m.room p = some room) :
      Move m (.hls token (.size p)) m (.hls token (.broadcast p room.size)) out
  | hlsBroadcast (token : String) (p isize : Nat) (room : LiveRoom) (connections : Connections)
      (out : List Output) (hp : m.room p = some room)
      (hout : ∀ user ∈ room.users, m.connections.registered user = true →
        .reply user (joinReply true room.token isize) ∈ out) :
      Move m (.hls token (.broadcast p isize)) { m with connections }
        (.hls token (.done (some p))) out

variable {m after : Mngr} {i : Nat} {s : Int} {c d : String} {pc : Pc} {env : RequestEnv}
  {shown : Shown}

theorem heap_of_room {p : Nat} {room : LiveRoom} (h : m.room p = some room) :
    m.heap[p]? = some (some room) := Option.join_eq_some_iff.mp h

theorem room_of_heap {p : Nat} {room : LiveRoom} (h : m.heap[p]? = some (some room)) :
    m.room p = some room := Option.join_eq_some_iff.mpr h

theorem send_reply {j final : Joins} {s : Int} {data : Reply} {out : List Output}
    (h : j.send s data = some (final, out)) (hreg : j.connections.registered s = true) :
    .reply s data ∈ out := by
  obtain ⟨connections, -, he⟩ := Option.map_eq_some_iff.mp h
  cases he
  simp [hreg]

theorem accept_reply {j final : Joins} {s : Int} {key : String} {data : Reply} {tick : UInt64}
    {out : List Output} (h : j.accept s key data tick = some (final, out))
    (hreg : j.connections.registered s = true) : .reply s data ∈ out := by
  simp only [Joins.accept, Option.bind_eq_bind, Option.bind_eq_some_iff, Option.pure_def,
    Option.some.injEq, Prod.mk.injEq] at h
  obtain ⟨⟨mid, sent⟩, hsend, -, -, connections, -, -, rfl⟩ := h
  exact send_reply hsend hreg

-- Where the call stands, is it about to enter a region?
def Call.region : Call → Option Region
  | .join _ c d pc => pc.region (c ++ d)
  | .quit _ c d (.lookup _) => some (.lookup (c ++ d))
  | .hls token .search => some (.search token)
  | _ => none

theorem shared_delete (m : Mngr) (s : Int) (pc pc' : Pc) (key : String) :
    m.withShared (((m.shared.goto s pc).delete key).goto s pc') = m.delete key := by
  unfold Mngr.delete Joins.delete
  rw [Joins.rooms_goto]
  cases m.shared.rooms[key]? <;> rfl

theorem advanceJoin_move (h : m.advanceJoin i s c d pc env = some (after, shown)) :
    ∃ base pc', Move m (.join s c d pc) base (.join s c d pc') shown.out ∧
      after = base.goto i (.join s c d pc') ∧ shown.region = pc.region (c ++ d) := by
  unfold Mngr.advanceJoin at h
  dsimp only at h
  split at h
  · cases h
  · obtain ⟨⟨j, out⟩, hstep, he⟩ := Option.map_eq_some_iff.mp h
    cases he
    obtain ⟨pc', hpc', hmove⟩ := joinStep_move hstep
    have hself : (m.shared.goto s pc).call s = some pc := by simp
    obtain rfl : pc = pc' := Option.some.inj (hself.symm.trans hpc')
    refine ⟨m.withShared j, (j.call s).getD pc, ?_, rfl, rfl⟩
    cases hmove with
    | checked ret hs =>
        rw [Joins.call_goto, if_pos rfl]
        exact .joinChecked s c d ret out (AdapterServer.checkStatus_cases hs)
    | offline ret hret =>
        rw [Joins.call_goto, if_pos rfl, shared_delete]
        exact .joinRefused s c d ret _ out (by omega) (.inl rfl)
    | deleted =>
        rw [Joins.call_goto, if_pos rfl, shared_delete]
        exact .joinRefused s c d 102 _ out (by omega) (.inr rfl)
    | found p hr =>
        rw [Joins.call_goto, if_pos rfl]
        exact .joinFound s c d p out hr
    | unexpected ret h102 hr =>
        rw [Joins.call_goto, if_pos rfl]
        have hoffline : ¬ (ret = 100 ∨ ret = 101) := by
          intro hret
          simp only [joinStep, hself, Joins.lookup, if_pos hret, Option.some.injEq,
            Prod.mk.injEq] at hstep
          have hcall := congrArg (fun j => j.call s) hstep.1
          simp [offlineReply, unexpectedReply] at hcall
        exact .joinUnexpected s c d ret out (by omega) hr
    | failed hret =>
        rw [Joins.call_goto, if_pos rfl]
        exact .joinStarted s c d _ _ out (.inl ⟨_, rfl⟩)
    | started hret =>
        rw [Joins.call_goto, if_pos rfl]
        exact .joinStarted s c d _ _ out (.inr ⟨_, rfl⟩)
    | created token =>
        have hcreate : (m.shared.goto s (.create token)).create s c d token =
            Joins.goto { m.shared.goto s (.create token) with
              heap := m.heap ++ [some (newRoom c d token s)] } s
              (.store m.heap.length (joinReply false token 1)) := by
          simp only [Joins.create, join_fresh]
          rfl
        rw [hcreate, Joins.call_goto, if_pos rfl]
        exact .joinCreated s c d token out
    | stored p resp =>
        rw [Joins.call_goto, if_pos rfl]
        exact .joinStored s c d p resp out
    | joined p room hp =>
        rw [Joins.call_goto, if_pos rfl]
        exact .joinJoined s c d p room out (room_of_heap hp)
    | read p count room hp =>
        rw [Joins.call_goto, if_pos rfl]
        exact .joinRead s c d p count room out (room_of_heap hp)
    | replied resp connections =>
        rw [Joins.call_goto, if_pos rfl]
        exact .joinReplied s c d resp connections out
    | accepted resp connections =>
        rw [Joins.call_goto, if_pos rfl]
        refine .joinAccepted s c d resp connections out fun hreg => ?_
        simp only [joinStep, hself] at hstep
        obtain ⟨⟨final, sent⟩, haccept, he⟩ := Option.map_eq_some_iff.mp hstep
        obtain rfl := congrArg Prod.snd he
        exact accept_reply haccept hreg

theorem advanceQuit_move {pc : QuitPc} (h : m.advanceQuit i s c d pc env = some (after, shown)) :
    ∃ base pc', Move m (.quit s c d pc) base (.quit s c d pc') shown.out ∧
      after = base.goto i (.quit s c d pc') ∧ shown.region = Call.region (.quit s c d pc) := by
  unfold Mngr.advanceQuit at h
  cases pc with
  | check =>
      obtain ⟨ret, -, he⟩ := Option.map_eq_some_iff.mp h
      cases he
      exact ⟨_, _, .quitChecked s c d ret [], rfl, rfl⟩
  | lookup ret =>
      dsimp only at h
      split at h
      · cases h
      · split at h
        · rename_i hret
          subst hret
          split at h
          · rename_i p hp
            cases h
            exact ⟨_, _, .quitFound s c d p [] hp, rfl, rfl⟩
          · cases h
            exact ⟨_, _, .quitAbsent s c d [], rfl, rfl⟩
        · rename_i hret
          cases h
          exact ⟨_, _, .quitRefused s c d ret [] hret, rfl, rfl⟩
  | found p =>
      obtain ⟨room, hp, he⟩ := Option.map_eq_some_iff.mp h
      cases he
      exact ⟨_, _, .quitQuit s c d p room env.tick [] hp, rfl, rfl⟩
  | clear =>
      obtain ⟨connections, -, he⟩ := Option.map_eq_some_iff.mp h
      cases he
      exact ⟨_, _, .quitCleared s c d connections [], rfl, rfl⟩
  | reply =>
      obtain ⟨⟨j, out⟩, hsend, he⟩ := Option.map_eq_some_iff.mp h
      cases he
      obtain ⟨connections, rfl⟩ := Joins.send_connections hsend
      exact ⟨_, _, .quitReplied s c d connections out, rfl, rfl⟩
  | done => cases h

theorem registered_update {connections updated : Connections} {f : Connection → Connection}
    (h : connections.update s f = some updated) (x : Int) :
    updated.registered x = connections.registered x := by
  unfold Connections.registered
  rw [Connections.getElem?_update h x]
  by_cases hx : s = x
  · subst hx
    cases connections[s]? with
    | none => simp
    | some entry => cases entry <;> simp
  · simp [hx]

theorem send_registered {j final : Joins} {data : Reply} {out : List Output}
    (h : j.send s data = some (final, out)) (x : Int) :
    final.connections.registered x = j.connections.registered x := by
  obtain ⟨connections, hu, he⟩ := Option.map_eq_some_iff.mp h
  cases he
  exact registered_update hu x

-- What a broadcast changes, and whom it reaches.
theorem broadcast_spec {data : Reply} {users : List Int} {j final : Joins} {out : List Output}
    (h : Joins.broadcast data users j = some (final, out)) :
    (∃ connections, final = { j with connections }) ∧
    ∀ user ∈ users, j.connections.registered user = true → .reply user data ∈ out := by
  induction users generalizing j out with
  | nil =>
      cases h
      exact ⟨⟨final.connections, rfl⟩, by simp⟩
  | cons user rest ih =>
      obtain ⟨⟨mid, sent⟩, hsend, hrest⟩ := Option.bind_eq_some_iff.mp h
      obtain ⟨⟨last, more⟩, hmore, he⟩ := Option.map_eq_some_iff.mp hrest
      cases he
      obtain ⟨⟨connections, hlast⟩, hall⟩ := ih hmore
      refine ⟨⟨connections, ?_⟩, fun x hx hreg => ?_⟩
      · obtain ⟨_, rfl⟩ := Joins.send_connections hsend
        exact hlast
      · rcases List.mem_cons.mp hx with rfl | hx
        · exact List.mem_append_left _ (send_reply hsend hreg)
        · exact List.mem_append_right _ (hall x hx ((send_registered hsend x).trans hreg))

theorem advanceHls_move {token : String} {pc : HlsPc}
    (h : m.advanceHls i token pc = some (after, shown)) :
    ∃ base pc', Move m (.hls token pc) base (.hls token pc') shown.out ∧
      after = base.goto i (.hls token pc') ∧ shown.region = Call.region (.hls token pc) := by
  cases pc with
  | search =>
      simp only [Mngr.advanceHls] at h
      split at h
      · cases h
      · split at h
        · rename_i p hp
          cases h
          exact ⟨_, _, .hlsFound token p [] hp, rfl, rfl⟩
        · rename_i hp
          cases h
          exact ⟨_, _, .hlsAbsent token [] hp, rfl, rfl⟩
  | ready p =>
      obtain ⟨room, hp, he⟩ := Option.map_eq_some_iff.mp h
      cases he
      exact ⟨_, _, .hlsReady token p room [] hp, rfl, rfl⟩
  | size p =>
      obtain ⟨room, hp, he⟩ := Option.map_eq_some_iff.mp h
      cases he
      exact ⟨_, _, .hlsSized token p room [] hp, rfl, rfl⟩
  | broadcast p isize =>
      obtain ⟨room, hp, hsend⟩ := Option.bind_eq_some_iff.mp h
      obtain ⟨⟨j, out⟩, hall, he⟩ := Option.map_eq_some_iff.mp hsend
      cases he
      obtain ⟨⟨connections, rfl⟩, hout⟩ := broadcast_spec hall
      exact ⟨_, _, .hlsBroadcast token p isize room connections out hp hout, rfl, rfl⟩
  | done p => cases h

-- A step of a call is one of its moves.
theorem advance_move (h : m.advance i env = some (after, shown)) :
    ∃ call base call', m.calls[i]? = some call ∧ Move m call base call' shown.out ∧
      after = base.goto i call' ∧ shown.region = call.region := by
  unfold Mngr.advance at h
  split at h
  · cases h
  · rename_i s c d pc hc
    obtain ⟨base, pc', hmove, hafter, hregion⟩ := advanceJoin_move h
    exact ⟨_, base, _, hc, hmove, hafter, hregion⟩
  · rename_i s c d pc hc
    obtain ⟨base, pc', hmove, hafter, hregion⟩ := advanceQuit_move h
    exact ⟨_, base, _, hc, hmove, hafter, hregion⟩
  · rename_i token pc hc
    obtain ⟨base, pc', hmove, hafter, hregion⟩ := advanceHls_move h
    exact ⟨_, base, _, hc, hmove, hafter, hregion⟩

-- Everything an event can do.
inductive CallMove (m : Mngr) : CallEvent → Mngr → Shown → Prop
  | began (event : CallEvent) (call : Call) (hb : event.begins = some call) :
      CallMove m event { m with calls := m.calls ++ [call] } {}
  | advanced (i : Nat) (env : RequestEnv) (call call' : Call) (base : Mngr) (shown : Shown)
      (hc : m.calls[i]? = some call) (hmove : Move m call base call' shown.out)
      (hregion : shown.region = call.region) :
      CallMove m (.advance i env) (base.goto i call') shown
  | reaped (env : SweepEnv) (key : String) (rest : List String) (server : TcpServer)
      (out : List Output) (hs : m.sweeper = .reap key rest) :
      CallMove m (.sweep env) { m.delete key with server, sweeper := .visit rest } { out }
  | left (s : Int) (roomid : String) (tick : UInt64) (p : Nat) (room : LiveRoom)
      (hr : m.rooms[roomid]? = some p) (hp : m.room p = some room) :
      CallMove m (.leave s roomid tick) (m.write p (room.quit s tick)) {}
  | aside (event : CallEvent) (connections : Connections) (server : TcpServer) (sweeper : Sweeper)
      (out : List Output) (htakes : m.takes event = none) (hb : event.begins = none)
      (hstill : ∀ i env, event ≠ .advance i env) :
      CallMove m event { m with connections, server, sweeper } { out }

theorem sweep_move {env : SweepEnv} (h : m.sweep env = some (after, shown)) :
    CallMove m (.sweep env) after shown := by
  unfold Mngr.sweep at h
  split at h
  · rename_i hs
    cases h
    exact .aside _ m.connections m.server _ [] (by simp [Mngr.takes, hs]) rfl (by simp)
  · rename_i hs
    cases h
    exact .aside _ m.connections m.server _ [] (by simp [Mngr.takes, hs]) rfl (by simp)
  · rename_i key rest hs
    have htakes : m.takes (.sweep env) = none := by simp [Mngr.takes, hs]
    obtain ⟨p, -, he⟩ := Option.map_eq_some_iff.mp h
    split at he
    · cases he
      exact .aside _ m.connections m.server _ [] htakes rfl (by simp)
    · cases he
      exact .aside _ m.connections m.server _ [] htakes rfl (by simp)
  · rename_i key rest hs
    obtain ⟨p, -, he⟩ := Option.map_eq_some_iff.mp h
    cases he
    exact .reaped env key rest _ _ hs

theorem leave_move {roomid : String} {tick : UInt64} (h : m.leave s roomid tick = some (after, shown)) :
    CallMove m (.leave s roomid tick) after shown := by
  unfold Mngr.leave at h
  split at h
  · cases h
  · split at h
    · cases h
      exact .aside _ _ _ _ [] rfl rfl (by simp)
    · split at h
      · cases h
        exact .aside _ _ _ _ [] rfl rfl (by simp)
      · rename_i p hr
        obtain ⟨room, hp, he⟩ := Option.map_eq_some_iff.mp h
        cases he
        exact .left s roomid tick p room hr hp

theorem callStep_move {event : CallEvent} (h : callStep m event = some (after, shown)) :
    CallMove m event after shown := by
  cases event with
  | join s c d =>
      cases h
      exact .began _ _ rfl
  | quit s c d =>
      cases h
      exact .began _ _ rfl
  | notifyHls token =>
      cases h
      exact .began _ _ rfl
  | advance i env =>
      obtain ⟨call, base, call', hc, hmove, rfl, hregion⟩ := advance_move h
      exact .advanced i env call call' base shown hc hmove hregion
  | sweep env => exact sweep_move h
  | leave s roomid tick => exact leave_move h
  | established s tick =>
      obtain ⟨w, -, he⟩ := Option.map_eq_some_iff.mp h
      cases he
      exact .aside _ w.connections m.server m.sweeper [] rfl rfl (by simp)
  | removeConnection s =>
      cases h
      exact .aside _ _ m.server m.sweeper [] rfl rfl (by simp)
  | adapter event =>
      obtain ⟨⟨server, frames⟩, -, he⟩ := Option.map_eq_some_iff.mp h
      cases he
      exact .aside _ m.connections server m.sweeper _ rfl rfl (by simp)

end VideoAdapter.Wss

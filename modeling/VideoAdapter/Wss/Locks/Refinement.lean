import VideoAdapter.Wss.Calls.Refinement
import VideoAdapter.Wss.Locks

namespace VideoAdapter.Wss

open Adapter Lib
open Service (RequestEnv SweepEnv)

-- What the calls share, without the adapter server behind `handler_`.
def Joins.play (j : Joins) : Play := ⟨j.connections, j.rooms, j.heap⟩

def Mngr.play (m : Mngr) : Play := m.shared.play

-- A thread goes on while nobody else holds a mutex, or only the state thread holds `roomlock_`.
abbrev Goes (holds : Bool) : Play × PlayPoint → Play × PlayPoint → Prop :=
  Play.program.Passes fun l => l = .rooms → holds = false

-- The point at which a call stands. The token of a new room is known before the room is made.
inductive Stands : Call → PlayPoint → Prop
  | joinCheck (s : Int) (c d : String) : Stands (.join s c d .check) (.join s c d .check)
  | joinLookup (s : Int) (c d : String) (ret : Int) :
      Stands (.join s c d (.lookup ret)) (.join s c d (.lookup ret))
  | joinStart (s : Int) (c d : String) : Stands (.join s c d .start) (.join s c d .start)
  | joinCreate (s : Int) (c d token : String) :
      Stands (.join s c d (.create token)) (.join s c d .start)
  | joinStore (s : Int) (c d token : String) (p count : Nat) :
      Stands (.join s c d (.store p (joinReply false token count))) (.join s c d (.store p token count))
  | joinFound (s : Int) (c d : String) (p : Nat) :
      Stands (.join s c d (.found p)) (.join s c d (.found p))
  | joinJoined (s : Int) (c d : String) (p count : Nat) :
      Stands (.join s c d (.joined p count)) (.join s c d (.joined p count))
  | joinReply (s : Int) (c d : String) (resp : Reply) :
      Stands (.join s c d (.reply resp)) (.calls [.send s resp])
  | joinAccept (s : Int) (c d : String) (resp : Reply) :
      Stands (.join s c d (.accept resp)) (.calls (Play.accepted s (c ++ d) resp))
  | joinDone (s : Int) (c d : String) (code : Int) : Stands (.join s c d (.done code)) (.calls [])
  | quitCheck (s : Int) (c d : String) : Stands (.quit s c d .check) (.quit s c d .check)
  | quitLookup (s : Int) (c d : String) (ret : Int) :
      Stands (.quit s c d (.lookup ret)) (.quit s c d (.lookup ret))
  | quitFound (s : Int) (c d : String) (p : Nat) :
      Stands (.quit s c d (.found p)) (.quit s c d (.found p))
  | quitClear (s : Int) (c d : String) :
      Stands (.quit s c d .clear) (.calls [.setValue s "roomid" "", .send s stopReply])
  | quitReply (s : Int) (c d : String) : Stands (.quit s c d .reply) (.calls [.send s stopReply])
  | quitDone (s : Int) (c d : String) : Stands (.quit s c d .done) (.calls [])
  | hlsSearch (token : String) : Stands (.hls token .search) (.hls (.search token))
  | hlsReady (token : String) (p : Nat) : Stands (.hls token (.ready p)) (.hls (.ready p))
  | hlsSize (token : String) (p : Nat) : Stands (.hls token (.size p)) (.hls (.size p))
  | hlsBroadcast (token : String) (p isize : Nat) :
      Stands (.hls token (.broadcast p isize)) (.hls (.users p isize))
  | hlsDone (token : String) (p : Option Nat) : Stands (.hls token (.done p)) (.calls [])

-- The point at which the state thread stands in a sweep.
def Sweeper.point : Sweeper → PlayPoint
  | .idle => .calls []
  | .visit keys => .sweep (.loop keys)
  | .reap key rest => .sweep (.erase key rest)

-- Where the next step of the state thread begins.
def Sweeper.entry : Sweeper → PlayPoint
  | .idle => .sweep .enter
  | sweeper => sweeper.point

variable {j last : Joins} {m after : Mngr} {play next : Play} {point : PlayPoint} {holds : Bool}
  {i : Nat} {s : Int} {c d : String} {pc : Pc} {env : RequestEnv} {shown : Shown}
  {out : List Output}

-- A step that takes another mutex than `roomlock_`, or none.
theorem goes_of_exec {target : PlayPoint} (env : PlayEnv)
    (hexec : play.exec point env = some (next, target))
    (htakes : decide (point.takes = some .rooms) = false) :
    Goes holds (play, point) (next, target) := by
  refine LockProgram.Passes.single (fun l hl he => ?_) hexec
  subst he
  exact absurd hl (of_decide_eq_false htakes)

-- A step that takes `roomlock_`.
theorem goes_of_lock {target : PlayPoint} (env : PlayEnv)
    (hexec : play.exec point env = some (next, target)) (hfree : holds = false) :
    Goes holds (play, point) (next, target) :=
  LockProgram.Passes.single (fun _ _ _ => hfree) hexec

theorem goes_call {first : ServerCall} {connections : Connections} (tick : UInt64)
    (h : first.exec play.connections tick = some (connections, [])) (rest : List ServerCall) :
    Goes holds (play, .calls (first :: rest)) ({ play with connections }, .calls rest) := by
  refine goes_of_exec { tick } ?_ rfl
  simp [Play.exec, Play.call, h]

theorem goes_send {data : Reply} (h : j.send s data = some (last, out)) (rest : List ServerCall) :
    Goes holds (j.play, .calls (.send s data :: rest)) (last.play, .calls rest) := by
  obtain ⟨connections, hsend, he⟩ := Option.map_eq_some_iff.mp h
  cases he
  exact goes_call 0 (by simp [ServerCall.exec, Joins.play, hsend]) rest

theorem goes_accept {key : String} {resp : Reply} {tick : UInt64}
    (h : j.accept s key resp tick = some (last, out)) :
    Goes holds (j.play, .calls (Play.accepted s key resp)) (last.play, .calls []) := by
  simp only [Joins.accept, Option.bind_eq_bind, Option.bind_eq_some_iff, Option.pure_def,
    Option.some.injEq, Prod.mk.injEq] at h
  obtain ⟨⟨mid, sent⟩, hsend, valued, hvalue, stamped, hstamp, rfl, -⟩ := h
  have hset : Goes holds (mid.play, .calls [.setValue s "roomid" key, .updateTimestamp s])
      ({ mid.play with connections := valued }, .calls [.updateTimestamp s]) :=
    goes_call tick (by simp [ServerCall.exec, Joins.play, hvalue]) _
  have hupdate : Goes holds ({ mid.play with connections := valued }, .calls [.updateTimestamp s])
      ({ mid.play with connections := stamped }, .calls []) :=
    goes_call tick (by simp [ServerCall.exec, hstamp]) _
  exact ((goes_send hsend _).trans hset).trans hupdate

@[simp] theorem play_goto (m : Mngr) (i : Nat) (call : Call) : (m.goto i call).play = m.play := rfl

theorem play_delete (j : Joins) (key : String) : (j.delete key).play = j.play.delete key := by
  unfold Joins.delete Play.delete
  rw [show j.play.rooms = j.rooms from rfl]
  cases j.rooms[key]? <;> rfl

theorem call_goto_self (j : Joins) (s : Int) (pc : Pc) : (j.goto s pc).call s = some pc := by simp

-- A step of a join.
theorem joinStep_goes (h : joinStep c d j (s, env) = some (last, out)) (hcall : j.call s = some pc)
    (hfree : (pc.region (c ++ d)).isSome → holds = false) (hstands : Stands (.join s c d pc) point) :
    ∃ pc' point', last.call s = some pc' ∧ Stands (.join s c d pc') point' ∧
      Goes holds (j.play, point) (last.play, point') := by
  simp only [joinStep, hcall] at h
  cases hstands with
  | joinCheck s c d =>
      obtain ⟨ret, -, he⟩ := Option.map_eq_some_iff.mp h
      cases he
      exact ⟨_, _, call_goto_self .., .joinLookup s c d ret, goes_of_exec { ret } rfl rfl⟩
  | joinLookup s c d ret =>
      cases h
      have hlookup : ∃ pc' point', (j.lookup s (c ++ d) ret).call s = some pc' ∧
          Stands (.join s c d pc') point' ∧
          j.play.exec (.join s c d (.lookup ret)) {} =
            some ((j.lookup s (c ++ d) ret).play, point') := by
        simp only [Joins.lookup, Play.exec, Play.joinLiveroom]
        split_ifs with hoffline hnone hplaying
        · refine ⟨_, _, call_goto_self .., .joinReply s c d _, ?_⟩
          rw [← play_delete]
          rfl
        · refine ⟨_, _, call_goto_self .., .joinStart s c d, ?_⟩
          rw [← play_delete]
          rfl
        · rw [show j.play.rooms = j.rooms from rfl]
          cases j.rooms[c ++ d]? with
          | none => exact ⟨_, _, call_goto_self .., .joinReply s c d _, rfl⟩
          | some p => exact ⟨_, _, call_goto_self .., .joinFound s c d p, rfl⟩
        · exact ⟨_, _, call_goto_self .., .joinReply s c d _, rfl⟩
      obtain ⟨pc', point', hpc, hnext, hexec⟩ := hlookup
      exact ⟨pc', point', hpc, hnext, goes_of_lock {} hexec (hfree rfl)⟩
  | joinStart s c d =>
      cases h
      split
      · exact ⟨_, _, call_goto_self .., .joinReply s c d _,
          goes_of_exec { start := .error _ } rfl rfl⟩
      · -- the room is made with the next step
        exact ⟨_, _, call_goto_self .., .joinCreate s c d _, .refl⟩
  | joinCreate s c d token =>
      cases h
      have hnew : j.play.exec (.join s c d .start) { start := .ok token } =
          some ({ j.play with heap := j.heap ++ [some { cmsid := c, devid := d, token }] },
            .join s c d (.create j.heap.length token)) := rfl
      refine ⟨_, _, call_goto_self .., .joinStore s c d token _ _, ?_⟩
      refine (goes_of_exec _ hnew rfl).trans (goes_of_exec {} ?_ rfl)
      simp [Play.exec, Play.joinLiveroom, Play.room, Play.write, Joins.play, Joins.create, Joins.goto]
  | joinStore s c d token p count =>
      cases h
      exact ⟨_, _, call_goto_self .., .joinAccept s c d _, goes_of_lock {} rfl (hfree rfl)⟩
  | joinFound s c d p =>
      obtain ⟨joined, hj, he⟩ := Option.map_eq_some_iff.mp h
      cases he
      unfold Joins.joinRoom at hj
      split at hj
      next room hp =>
        cases hj
        refine ⟨_, _, call_goto_self .., .joinJoined s c d p _, goes_of_exec {} ?_ rfl⟩
        simp [Play.exec, Play.joinLiveroom, Play.room, Joins.play, hp, Play.write, Joins.goto]
      next => cases hj
  | joinJoined s c d p count =>
      obtain ⟨joined, hj, he⟩ := Option.map_eq_some_iff.mp h
      cases he
      unfold Joins.readRoom at hj
      split at hj
      next room hp =>
        cases hj
        refine ⟨_, _, call_goto_self .., .joinAccept s c d _, goes_of_exec {} ?_ rfl⟩
        simp [Play.exec, Play.joinLiveroom, Play.room, Joins.play, hp, Joins.goto]
      next => cases hj
  | joinReply s c d resp =>
      obtain ⟨⟨mid, sent⟩, hsend, he⟩ := Option.map_eq_some_iff.mp h
      cases he
      exact ⟨_, _, call_goto_self .., .joinDone s c d _, goes_send hsend []⟩
  | joinAccept s c d resp =>
      obtain ⟨⟨mid, sent⟩, haccept, he⟩ := Option.map_eq_some_iff.mp h
      cases he
      have hgoes : Goes holds (j.play, .calls (Play.accepted s (c ++ d) resp)) (mid.play, .calls []) :=
        goes_accept haccept
      exact ⟨_, _, call_goto_self .., .joinDone s c d _, hgoes⟩
  | joinDone s c d code => cases h

theorem advanceJoin_goes (h : m.advanceJoin i s c d pc env = some (after, shown))
    (hstands : Stands (.join s c d pc) point) :
    ∃ call' point', after = (m.withShared after.shared).goto i call' ∧ Stands call' point' ∧
      Goes m.sweeper.holds (m.play, point) (after.play, point') := by
  unfold Mngr.advanceJoin at h
  dsimp only at h
  split at h
  · cases h
  next hfree =>
    obtain ⟨⟨j, out⟩, hstep, he⟩ := Option.map_eq_some_iff.mp h
    cases he
    have hregion : (pc.region (c ++ d)).isSome → m.sweeper.holds = false := by
      intro hsome
      exact Bool.eq_false_iff.mpr fun hholds => hfree ⟨hholds, hsome⟩
    obtain ⟨pc', point', hpc, hnext, hgoes⟩ :=
      joinStep_goes hstep (call_goto_self ..) hregion hstands
    refine ⟨_, point', rfl, ?_, hgoes⟩
    rw [hpc]
    exact hnext

theorem advanceQuit_goes {pc : QuitPc} (h : m.advanceQuit i s c d pc env = some (after, shown))
    (hstands : Stands (.quit s c d pc) point) :
    ∃ call' point', after = (m.withShared after.shared).goto i call' ∧ Stands call' point' ∧
      Goes m.sweeper.holds (m.play, point) (after.play, point') := by
  unfold Mngr.advanceQuit at h
  cases hstands with
  | quitCheck s c d =>
      obtain ⟨ret, -, he⟩ := Option.map_eq_some_iff.mp h
      cases he
      exact ⟨_, _, rfl, .quitLookup s c d ret, goes_of_exec { ret } rfl rfl⟩
  | quitLookup s c d ret =>
      dsimp only at h
      split at h
      · cases h
      next hfree =>
        have hholds : m.sweeper.holds = false := Bool.eq_false_iff.mpr hfree
        split at h
        next hret =>
          split at h
          next p hp =>
            cases h
            have hroom : m.play.rooms[c ++ d]? = some p := hp
            refine ⟨_, _, rfl, .quitFound s c d p, goes_of_lock {} ?_ hholds⟩
            simp [Play.exec, Play.quitLiveroom, hret, hroom]
          next hp =>
            cases h
            have hroom : m.play.rooms[c ++ d]? = none := hp
            refine ⟨_, _, rfl, .quitReply s c d, goes_of_lock {} ?_ hholds⟩
            simp [Play.exec, Play.quitLiveroom, hret, hroom]
        next hret =>
          cases h
          refine ⟨_, _, rfl, .quitReply s c d, goes_of_lock {} ?_ hholds⟩
          simp only [Play.exec, Play.quitLiveroom, if_neg hret, Mngr.play]
          rw [← play_delete]
          rfl
  | quitFound s c d p =>
      obtain ⟨room, hp, he⟩ := Option.map_eq_some_iff.mp h
      cases he
      refine ⟨_, _, rfl, .quitClear s c d, goes_of_exec { tick := env.tick } ?_ rfl⟩
      have hroom : m.play.room p = some room := hp
      simp only [Play.exec, Play.quitLiveroom, hroom, Option.map_some]
      rfl
  | quitClear s c d =>
      obtain ⟨connections, hvalue, he⟩ := Option.map_eq_some_iff.mp h
      cases he
      have hcleared : m.play.connections.setValue s "roomid" "" = some connections := hvalue
      have hgoes : Goes m.sweeper.holds
          (m.play, .calls [.setValue s "roomid" "", .send s stopReply])
          ({ m.play with connections }, .calls [.send s stopReply]) :=
        goes_call 0 (by simp [ServerCall.exec, hcleared]) _
      exact ⟨_, _, rfl, .quitReply s c d, hgoes⟩
  | quitReply s c d =>
      obtain ⟨⟨j, out⟩, hsend, he⟩ := Option.map_eq_some_iff.mp h
      cases he
      have hgoes : Goes m.sweeper.holds (m.play, .calls [.send s stopReply]) (j.play, .calls []) :=
        goes_send hsend []
      exact ⟨_, _, rfl, .quitDone s c d, hgoes⟩
  | quitDone s c d => cases h

-- The room is not changed by the messages to its users.
theorem broadcast_goes {data : Reply} {p : Nat} {room : LiveRoom} {users : List Int} {k : Nat}
    (h : Joins.broadcast data users j = some (last, out)) (hroom : j.play.room p = some room)
    (husers : room.users.drop k = users) :
    Goes holds (j.play, .hls (.loop p data k)) (last.play, .calls []) := by
  induction users generalizing j k out with
  | nil =>
      cases h
      have hend : room.users[k]? = none := by
        simpa using List.drop_eq_nil_iff.mp husers
      refine goes_of_exec {} ?_ rfl
      simp [Play.exec, Play.notifyHls, hroom, hend]
  | cons user rest ih =>
      obtain ⟨⟨mid, sent⟩, hsend, hrest⟩ := Option.bind_eq_some_iff.mp h
      obtain ⟨⟨final, more⟩, hmore, he⟩ := Option.map_eq_some_iff.mp hrest
      cases he
      obtain ⟨connections, hconnections, he⟩ := Option.map_eq_some_iff.mp hsend
      cases he
      have huser : room.users[k]? = some user := by
        rw [← List.head?_drop, husers]
        rfl
      have hleft : room.users.drop (k + 1) = rest := by
        rw [← List.tail_drop, husers]
        rfl
      have hloop : Goes holds (j.play, .hls (.loop p data k)) (j.play, .hls (.send p data k user)) := by
        refine goes_of_exec {} ?_ rfl
        simp [Play.exec, Play.notifyHls, hroom, huser]
      have hnext : Goes holds (j.play, .hls (.send p data k user))
          ({ j.play with connections }, .hls (.loop p data (k + 1))) := by
        refine goes_of_exec {} ?_ rfl
        have hsent : j.play.connections.send user data = some connections := hconnections
        simp [Play.exec, Play.notifyHls, hsent]
      exact (hloop.trans hnext).trans (ih hmore hroom hleft)

theorem advanceHls_goes {token : String} {pc : HlsPc}
    (h : m.advanceHls i token pc = some (after, shown)) (hstands : Stands (.hls token pc) point) :
    ∃ call' point', after = (m.withShared after.shared).goto i call' ∧ Stands call' point' ∧
      Goes m.sweeper.holds (m.play, point) (after.play, point') := by
  cases hstands with
  | hlsSearch token =>
      simp only [Mngr.advanceHls] at h
      have hsearch : m.play.search token = m.search token := rfl
      split at h
      · cases h
      next hfree =>
        have hholds : m.sweeper.holds = false := Bool.eq_false_iff.mpr hfree
        split at h
        next p hp =>
          cases h
          refine ⟨_, _, rfl, .hlsReady token p, goes_of_lock {} ?_ hholds⟩
          simp [Play.exec, Play.notifyHls, hsearch, hp]
        next hp =>
          cases h
          refine ⟨_, _, rfl, .hlsDone token none, goes_of_lock {} ?_ hholds⟩
          simp [Play.exec, Play.notifyHls, hsearch, hp]
  | hlsReady token p =>
      obtain ⟨room, hp, he⟩ := Option.map_eq_some_iff.mp h
      cases he
      have hroom : m.play.room p = some room := hp
      refine ⟨_, _, rfl, .hlsSize token p, goes_of_exec {} ?_ rfl⟩
      simp only [Play.exec, Play.notifyHls, hroom, Option.map_some]
      rfl
  | hlsSize token p =>
      obtain ⟨room, hp, he⟩ := Option.map_eq_some_iff.mp h
      cases he
      have hroom : m.play.room p = some room := hp
      refine ⟨_, _, rfl, .hlsBroadcast token p room.size, goes_of_exec {} ?_ rfl⟩
      simp [Play.exec, Play.notifyHls, hroom]
  | hlsBroadcast token p isize =>
      obtain ⟨room, hp, hsend⟩ := Option.bind_eq_some_iff.mp h
      obtain ⟨⟨j, out⟩, hall, he⟩ := Option.map_eq_some_iff.mp hsend
      cases he
      have hroom : m.play.room p = some room := hp
      have husers : Goes m.sweeper.holds (m.play, .hls (.users p isize))
          (m.play, .hls (.loop p (joinReply true room.token isize) 0)) := by
        refine goes_of_exec {} ?_ rfl
        simp [Play.exec, Play.notifyHls, hroom]
      have hgoes : Goes m.sweeper.holds (m.play, .hls (.users p isize)) (j.play, .calls []) :=
        husers.trans (broadcast_goes hall hroom rfl)
      exact ⟨_, _, rfl, .hlsDone token (some p), hgoes⟩
  | hlsDone token p => cases h

-- A step of a call is a way of a thread from the point of the call to the point of what is left.
theorem advance_goes {call : Call} (h : m.advance i env = some (after, shown))
    (hc : m.calls[i]? = some call) (hstands : Stands call point) :
    ∃ call' point', after = (m.withShared after.shared).goto i call' ∧ Stands call' point' ∧
      Goes m.sweeper.holds (m.play, point) (after.play, point') := by
  simp only [Mngr.advance, hc] at h
  cases call with
  | join s c d pc => exact advanceJoin_goes h hstands
  | quit s c d pc => exact advanceQuit_goes h hstands
  | hls token pc => exact advanceHls_goes h hstands

theorem play_mngr_delete (m : Mngr) (key : String) : (m.delete key).play = m.play.delete key := by
  rw [Mngr.play, Mngr.play, ← play_delete]
  rfl

theorem sweep_goes {env : SweepEnv} (h : m.sweep env = some (after, shown)) :
    Goes false (m.play, m.sweeper.entry) (after.play, after.sweeper.point) := by
  unfold Mngr.sweep at h
  split at h
  next hs =>
    cases h
    rw [hs]
    exact goes_of_lock {} rfl rfl
  next hs =>
    cases h
    rw [hs]
    exact goes_of_exec {} rfl rfl
  next key rest hs =>
    obtain ⟨room, hroom, he⟩ := Option.map_eq_some_iff.mp h
    obtain ⟨p, hp, hroom⟩ := Option.bind_eq_some_iff.mp hroom
    have hrooms : m.play.rooms[key]? = some p := hp
    have hlive : m.play.room p = some room := hroom
    rw [hs]
    have hsize : Goes false (m.play, .sweep (.loop (key :: rest)))
        (m.play, .sweep (.size key rest p env.tick)) := by
      refine goes_of_exec { tick := env.tick } ?_ rfl
      simp [Play.exec, Play.sweep, hrooms, hlive]
    have hreap : Goes false (m.play, .sweep (.size key rest p env.tick))
        (m.play, .sweep (.reap key rest p env.tick room.size)) := by
      refine goes_of_exec {} ?_ rfl
      simp [Play.exec, Play.sweep, hlive]
    refine (hsize.trans hreap).trans ?_
    split at he
    next hdue =>
      cases he
      refine goes_of_exec {} ?_ rfl
      simp only [Play.exec, Play.sweep, hlive, Option.map_some, if_pos hdue]
      rfl
    next hdue =>
      cases he
      have hshow : Goes false (m.play, .sweep (.reap key rest p env.tick room.size))
          (m.play, .sweep (.showUsers rest p)) := by
        refine goes_of_exec {} ?_ rfl
        simp only [Play.exec, Play.sweep, hlive, Option.map_some, if_neg hdue]
      refine hshow.trans (goes_of_exec {} ?_ rfl)
      simp only [Play.exec, Play.sweep, hlive, Option.map_some]
      rfl
  next key rest hs =>
    obtain ⟨room, hroom, he⟩ := Option.map_eq_some_iff.mp h
    obtain ⟨p, hp, hroom⟩ := Option.bind_eq_some_iff.mp hroom
    cases he
    have hrooms : m.play.rooms[key]? = some p := hp
    have hlive : m.play.room p = some room := hroom
    rw [hs]
    refine goes_of_exec {} ?_ rfl
    simp only [Play.exec, Sweeper.entry, Sweeper.point, Play.sweep, hrooms, Option.bind_some, hlive,
      Option.map_some, ← play_mngr_delete]
    rfl

-- What leaving a room can do.
theorem leave_cases {roomid : String} {tick : UInt64}
    (h : m.leave s roomid tick = some (after, shown)) (hroomid : roomid ≠ "") :
    m.sweeper.holds = false ∧ (m.play.rooms[roomid]? = none ∧ after = m ∨
      ∃ p room, m.play.rooms[roomid]? = some p ∧ m.play.room p = some room ∧
        after = m.write p (room.quit s tick)) := by
  unfold Mngr.leave at h
  split at h
  · cases h
  next hfree =>
    refine ⟨Bool.eq_false_iff.mpr hfree, ?_⟩
    split at h
    next hp =>
      cases h
      exact .inl ⟨hp, rfl⟩
    next p hp =>
      obtain ⟨room, hroom, he⟩ := Option.map_eq_some_iff.mp h
      cases he
      exact .inr ⟨p, room, hp, hroom, rfl⟩

-- `onDisconnect`, from the room id it has read.
theorem disconnect_goes {roomid : String} {tick : UInt64}
    (h : m.leave s roomid tick = some (after, shown)) (hroomid : roomid ≠ "") :
    Goes false (m.play, .disconnect s (.rooms roomid))
      (after.play, .calls [.removeConnection s]) := by
  obtain ⟨-, ⟨hp, rfl⟩ | ⟨p, room, hp, hroom, rfl⟩⟩ := leave_cases h hroomid
  · refine goes_of_lock {} ?_ rfl
    simp [Play.exec, Play.onDisconnect, hp]
  · have hfound : Goes false (m.play, .disconnect s (.rooms roomid))
        (m.play, .disconnect s (.quit p)) := by
      refine goes_of_lock {} ?_ rfl
      simp [Play.exec, Play.onDisconnect, hp]
    refine hfound.trans (goes_of_exec { tick } ?_ rfl)
    simp only [Play.exec, Play.onDisconnect, hroom, Option.map_some]
    rfl

-- `onTimeout`, with the keys that are left to check.
theorem timeout_goes {roomid : String} {tick cur : UInt64} (key : Int) (rest : List Int)
    (h : m.leave s roomid tick = some (after, shown)) (hroomid : roomid ≠ "") :
    Goes false (m.play, .check cur (.timeout key rest s roomid))
      (after.play, .check cur (.clear key rest)) := by
  obtain ⟨-, ⟨hp, rfl⟩ | ⟨p, room, hp, hroom, rfl⟩⟩ := leave_cases h hroomid
  · refine goes_of_lock {} ?_ rfl
    simp [Play.exec, Play.checkConnectionState, hp]
  · have hfound : Goes false (m.play, .check cur (.timeout key rest s roomid))
        (m.play, .check cur (.quit key rest s p)) := by
      refine goes_of_lock {} ?_ rfl
      simp [Play.exec, Play.checkConnectionState, hp]
    refine hfound.trans (goes_of_exec { tick } ?_ rfl)
    simp only [Play.exec, Play.checkConnectionState, hroom, Option.map_some]
    rfl

theorem leave_connections {roomid : String} {tick : UInt64}
    (h : m.leave s roomid tick = some (after, shown)) (hroomid : roomid ≠ "") :
    after.connections = m.connections := by
  obtain ⟨-, ⟨-, rfl⟩ | ⟨p, room, -, -, rfl⟩⟩ := leave_cases h hroomid
  · rfl
  · rfl

theorem owned_leave {roomid : String} {tick : UInt64} (hv : m.shared.Owned)
    (h : m.leave s roomid tick = some (after, shown)) (hroomid : roomid ≠ "") :
    after.shared.Owned := by
  obtain ⟨-, ⟨-, rfl⟩ | ⟨p, room, -, hroom, rfl⟩⟩ := leave_cases h hroomid
  · exact hv
  · refine ⟨fun k q hq => ?_, hv.inj⟩
    obtain ⟨old, hold⟩ := hv.live k q hq
    have hlive := room_write hroom (room.quit s tick) q
    by_cases he : q = p
    · rw [if_pos he] at hlive
      exact ⟨_, heap_of_room hlive⟩
    · rw [if_neg he, room_of_heap hold] at hlive
      exact ⟨old, heap_of_room hlive⟩

theorem loop_goes_on {cur : UInt64} {key : Int} (rest : List Int)
    (h : ∀ entry ∈ play.connections[key]?, ∃ c : Connection, entry = some c ∧ c.overdue cur = false) :
    Goes false (play, .check cur (.loop (key :: rest))) (play, .check cur (.loop rest)) := by
  refine goes_of_exec {} ?_ rfl
  cases hentry : play.connections[key]? with
  | none => simp [Play.exec, Play.checkConnectionState, hentry]
  | some entry =>
      obtain ⟨c, rfl, hdue⟩ := h entry hentry
      simp [Play.exec, Play.checkConnectionState, hentry, hdue]

theorem not_overdue_cleared (c : Connection) (cur : UInt64) :
    (c.setValue "roomid" "").overdue cur = false := by
  simp [Connection.overdue, Connection.setValue, Connection.value]

-- The round of an entry whose time is over: it is at the same entry afterwards.
theorem overdue_goes {cur : UInt64} {key : Int} {c : Connection} (tick : UInt64) (rest : List Int)
    (hv : m.shared.Owned) (hholds : m.sweeper.holds = false)
    (hc : m.play.connections[key]? = some (some c)) (hdue : c.overdue cur = true) :
    ∃ after : Mngr, Goes false (m.play, .check cur (.loop (key :: rest)))
        (after.play, .check cur (.loop (key :: rest))) ∧ after.shared.Owned ∧
      after.sweeper.holds = false ∧
      after.play.connections[key]? = some (some (c.setValue "roomid" "")) ∧
      after.service =
        { m.service.quitRoom c.socketid (c.value "roomid") tick with
          connections := (m.service.quitRoom c.socketid (c.value "roomid") tick).connections.insert key
            (some (c.setValue "roomid" "")) } := by
  have hroomid : c.value "roomid" ≠ "" := by
    simp only [Connection.overdue, Bool.and_eq_true, decide_eq_true_eq] at hdue
    exact hdue.2
  obtain ⟨mid, hleave, hmid⟩ := leave_alone hv hholds c.socketid (c.value "roomid") tick
  have hfound : Goes false (m.play, .check cur (.loop (key :: rest)))
      (m.play, .check cur (.timeout key rest c.socketid (c.value "roomid"))) := by
    refine goes_of_exec {} ?_ rfl
    simp [Play.exec, Play.checkConnectionState, hc, hdue]
  have hentry : mid.play.connections[key]? = some (some c) := by
    rw [← hc]
    exact congrArg (fun connections : Connections => connections[key]?)
      (leave_connections hleave hroomid)
  have hclear : mid.play.connections.setValue key "roomid" "" =
      some (mid.play.connections.insert key (some (c.setValue "roomid" ""))) := by
    simp [Connections.setValue, Connections.update, hentry]
  have hcleared : Goes false (mid.play, .check cur (.clear key rest))
      ({ mid.play with
        connections := mid.play.connections.insert key (some (c.setValue "roomid" "")) },
        .check cur (.loop (key :: rest))) := by
    refine goes_of_exec {} ?_ rfl
    simp [Play.exec, Play.checkConnectionState, hclear]
  refine ⟨{ mid with connections := mid.connections.insert key (some (c.setValue "roomid" "")) },
    (hfound.trans (timeout_goes key rest hleave hroomid)).trans hcleared, ?_, ?_, ?_, ?_⟩
  · exact ⟨(owned_leave hv hleave hroomid).live, (owned_leave hv hleave hroomid).inj⟩
  · obtain ⟨-, ⟨-, rfl⟩ | ⟨p, room, -, -, rfl⟩⟩ := leave_cases hleave hroomid
    · exact hholds
    · exact hholds
  · exact Std.ExtTreeMap.getElem?_insert_self
  · rw [← hmid]
    rfl

-- With two rounds for each key the loop of `CheckConnectionState` comes to its end.
theorem checkLoop_goes {cur : UInt64} {tick : Int → UInt64} {keys : List Int} {fuel : Nat}
    {w : Service} (hv : m.shared.Owned) (hholds : m.sweeper.holds = false)
    (hfuel : 2 * keys.length < fuel)
    (h : Service.checkLoop cur tick fuel keys m.service = some (w, out)) :
    ∃ after : Mngr, Goes false (m.play, .check cur (.loop keys)) (after.play, .calls []) ∧
      after.service = w := by
  induction keys generalizing m fuel out with
  | nil =>
      obtain ⟨fuel, rfl⟩ := Nat.exists_eq_add_one_of_ne_zero (Nat.ne_zero_of_lt hfuel)
      cases h
      exact ⟨m, goes_of_exec {} rfl rfl, rfl⟩
  | cons key rest ih =>
      rw [List.length_cons] at hfuel
      obtain ⟨fuel, rfl⟩ : ∃ f, fuel = f + 2 := ⟨fuel - 2, by omega⟩
      have hentry : m.service.connections[key]? = m.play.connections[key]? := rfl
      unfold Service.checkLoop at h
      rw [hentry] at h
      cases hc : m.play.connections[key]? with
      | none =>
          simp only [hc] at h
          obtain ⟨after, hgoes, hw⟩ := ih hv hholds (by omega) h
          exact ⟨after, (loop_goes_on rest (by simp [hc])).trans hgoes, hw⟩
      | some entry =>
          cases entry with
          | none => simp [hc] at h
          | some c =>
              simp only [hc] at h
              split at h
              next hdue =>
                have hover : c.overdue cur = true := by
                  simpa [Connection.overdue] using hdue
                obtain ⟨mid, hround, hv', hholds', hcleared, hmid⟩ :=
                  overdue_goes (tick c.socketid) rest hv hholds hc hover
                obtain ⟨⟨last, more⟩, hloop, he⟩ := Option.map_eq_some_iff.mp h
                cases he
                -- the room id is empty now, so the iterator goes on
                have hpass := not_overdue_cleared c cur
                have hentry' : mid.service.connections[key]? = some (some (c.setValue "roomid" "")) :=
                  hcleared
                rw [← hmid] at hloop
                unfold Service.checkLoop at hloop
                simp only [hentry'] at hloop
                rw [if_neg (by simpa [Connection.overdue] using hpass)] at hloop
                obtain ⟨after, hgoes, hw⟩ := ih hv' hholds' (by omega) hloop
                have hnext : Goes false (mid.play, .check cur (.loop (key :: rest)))
                    (mid.play, .check cur (.loop rest)) :=
                  loop_goes_on rest (by simp [hcleared, hpass])
                exact ⟨after, (hround.trans hnext).trans hgoes, hw⟩
              next hdue =>
                have hpass : c.overdue cur = false := by
                  simpa [Connection.overdue] using hdue
                obtain ⟨after, hgoes, hw⟩ := ih hv hholds (by omega) h
                exact ⟨after, (loop_goes_on rest (by simp [hc, hpass])).trans hgoes, hw⟩

-- A call of `CheckConnectionState` during which the others wait does what the sequential one does.
theorem checkConnectionState_goes {cur : UInt64} {tick : Int → UInt64} {w : Service}
    (hv : m.shared.Owned) (hholds : m.sweeper.holds = false)
    (h : m.service.checkConnectionState cur tick = some (w, out)) :
    ∃ after : Mngr, Goes false (m.play, .check cur .enter) (after.play, .calls []) ∧
      after.service = w := by
  obtain ⟨after, hgoes, hw⟩ := checkLoop_goes hv hholds (Nat.lt_succ_self _) h
  have henter : Goes false (m.play, .check cur .enter)
      (m.play, .check cur (.loop m.service.connections.keys)) :=
    goes_of_exec {} rfl rfl
  exact ⟨after, henter.trans hgoes, hw⟩

end VideoAdapter.Wss

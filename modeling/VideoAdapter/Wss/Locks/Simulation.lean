import VideoAdapter.Wss.LockOrder
import VideoAdapter.Wss.Locks.Refinement

namespace VideoAdapter.Wss

open Adapter Lib
open Service (RequestEnv SweepEnv)

-- Each call has a thread that stands where the call stands, and no two calls have the same one.
-- No thread holds a mutex, but the state thread has `roomlock_` during a sweep.
structure Mirrors (m : Mngr) (n : Playing) (place : Nat → Nat) (k : Nat) : Prop where
  play : n.play = m.play
  inj : ∀ i i', i < m.calls.length → i' < m.calls.length → place i = place i' → i = i'
  stands : ∀ i call, m.calls[i]? = some call →
    ∃ point, n.threads[place i]? = some ⟨point, false⟩ ∧ Stands call point
  sweeps : m.sweeper.holds = true → n.threads[k]? = some ⟨m.sweeper.point, false⟩
  quiet : ∀ j other, n.threads[j]? = some other →
    Play.program.held other = [] ∨ m.sweeper.holds = true ∧ j = k

-- Who leaves a room leaves the one that the connection table has for it.
def leavesOwn (_ : CallHistory) (m : Mngr) : CallEvent → Prop
  | .leave s roomid _ => m.connections.getValue s "roomid" = some roomid
  | _ => True

variable {m after : Mngr} {n start : Playing} {place : Nat → Nat} {i j k : Nat} {call : Call}
  {point point' : PlayPoint} {shown : Shown} {record : List (PlayEvent × Unit)}

theorem Stands.outer_eq (h : Stands call point) : point.outer = [] := by
  cases h <;> rfl

theorem Sweeper.outer_point {sweeper : Sweeper} (h : sweeper.holds = true) :
    sweeper.point.outer = [.rooms] := by
  cases sweeper with
  | idle => cases h
  | visit keys => rfl
  | reap key rest => rfl

theorem held_standing (point : PlayPoint) : Play.program.held ⟨point, false⟩ = point.outer := rfl

theorem Play.program_nested : Play.program.Nested := by
  intro point l htakes houter
  rcases Apart.nesting htakes houter with ⟨-, hlt⟩ | ⟨-, hlt⟩ | ⟨rfl, p, hp⟩
  · exact Nat.lt_irrefl _ hlt
  · exact Nat.lt_irrefl _ hlt
  · cases hp

-- The steps of a thread extend a run.
theorem exists_run_of_steps {play : Play} {threads : List (Standing PlayPoint)}
    (run : Run playStep free start record n)
    (h : Play.program.Steps j (n.play, n.threads) (play, threads)) :
    ∃ record', Run playStep free start record' ⟨play, threads⟩ := by
  suffices hall : ∀ final, Play.program.Steps j (n.play, n.threads) final →
      ∃ record', Run playStep free start record' ⟨final.1, final.2⟩ from hall _ h
  intro final hsteps
  induction hsteps with
  | refl => exact ⟨record, run⟩
  | @tail mid last _ hstep ih =>
      obtain ⟨record', run'⟩ := ih
      obtain ⟨env, hstep⟩ := hstep
      have hs : playStep ⟨mid.1, mid.2⟩ (.advance j env) = some (⟨last.1, last.2⟩, ()) := by
        simp [playStep, hstep]
      exact ⟨_, run'.next trivial hs⟩

theorem sweep_calls {env : SweepEnv} (h : m.sweep env = some (after, shown)) :
    after.calls = m.calls := by
  unfold Mngr.sweep at h
  split at h
  · cases h
    rfl
  · cases h
    rfl
  · obtain ⟨room, -, he⟩ := Option.map_eq_some_iff.mp h
    split at he <;> cases he <;> rfl
  · obtain ⟨room, -, he⟩ := Option.map_eq_some_iff.mp h
    cases he
    rfl

namespace Mirrors

-- The state thread, when it holds `roomlock_`, is none of the threads that hold nothing.
theorem ne_sweeper (h : Mirrors m n place k) (hthread : n.threads[j]? = some ⟨point, false⟩)
    (houter : point.outer = []) (hholds : m.sweeper.holds = true) : j ≠ k := by
  rintro rfl
  have hpoint := Option.some.inj (hthread.symm.trans (h.sweeps hholds))
  cases hpoint
  rw [Sweeper.outer_point hholds] at houter
  cases houter

theorem aside (h : Mirrors m n place k) (i : Nat) :
    Play.program.OthersAside (fun l => l = .rooms → m.sweeper.holds = false) n.threads i := by
  intro j other hj _ l hl hfree
  rcases h.quiet j other hj with hheld | ⟨hholds, rfl⟩
  · rw [hheld] at hl
    cases hl
  · obtain rfl := Option.some.inj (hj.symm.trans (h.sweeps hholds))
    rw [held_standing, Sweeper.outer_point hholds] at hl
    rw [hfree (List.mem_singleton.mp hl)] at hholds
    cases hholds

theorem append (h : Mirrors m n place k) (houter : point.outer = []) :
    Mirrors m ⟨n.play, n.threads ++ [⟨point, false⟩]⟩ place k where
  play := h.play
  inj := h.inj
  stands i call hc := by
    obtain ⟨there, hthere, hstands⟩ := h.stands i call hc
    have hlt := (List.getElem?_eq_some_iff.mp hthere).1
    exact ⟨there, (List.getElem?_append_left hlt).trans hthere, hstands⟩
  sweeps hholds := by
    have hk := h.sweeps hholds
    have hlt := (List.getElem?_eq_some_iff.mp hk).1
    exact (List.getElem?_append_left hlt).trans hk
  quiet j other hj := by
    rw [List.getElem?_append] at hj
    split at hj
    · exact h.quiet j other hj
    · rw [List.mem_singleton.mp (List.mem_of_getElem? hj)]
      exact .inl houter

-- A thread comes to another point; all calls but its own are where they were.
theorem set (h : Mirrors m n place k) (hthread : n.threads[j]? = some ⟨point, false⟩)
    (houter : point.outer = []) (houter' : point'.outer = [])
    (hlength : after.calls.length = m.calls.length) (hsweeper : after.sweeper = m.sweeper)
    (hcalls : ∀ i call, after.calls[i]? = some call →
      place i = j ∧ Stands call point' ∨ place i ≠ j ∧ m.calls[i]? = some call) :
    Mirrors after ⟨after.play, n.threads.set j ⟨point', false⟩⟩ place k where
  play := rfl
  inj i i' := by
    rw [hlength]
    exact h.inj i i'
  stands i call hc := by
    have hlt : j < n.threads.length := (List.getElem?_eq_some_iff.mp hthread).1
    rcases hcalls i call hc with ⟨rfl, hstands⟩ | ⟨hne, hold⟩
    · exact ⟨point', List.getElem?_set_self hlt, hstands⟩
    · obtain ⟨there, hthere, hstands⟩ := h.stands i call hold
      exact ⟨there, (List.getElem?_set_ne hne.symm).trans hthere, hstands⟩
  sweeps hholds := by
    rw [hsweeper] at hholds ⊢
    exact (List.getElem?_set_ne (h.ne_sweeper hthread houter hholds)).trans (h.sweeps hholds)
  quiet x other hx := by
    rw [hsweeper]
    by_cases he : j = x
    · subst he
      have hlt : j < n.threads.length := (List.getElem?_eq_some_iff.mp hthread).1
      rw [List.getElem?_set_self hlt] at hx
      obtain rfl := Option.some.inj hx
      exact .inl houter'
    · rw [List.getElem?_set_ne he] at hx
      exact h.quiet x other hx

theorem place_lt (h : Mirrors m n place k) (hi : i < m.calls.length) :
    place i < n.threads.length := by
  obtain ⟨point, hthread, -⟩ := h.stands i m.calls[i] (List.getElem?_eq_getElem hi)
  exact (List.getElem?_eq_some_iff.mp hthread).1

-- A new call gets a thread of its own.
theorem began (h : Mirrors m n place k) {first : PlayPoint} (hstands : Stands call first) :
    Mirrors { m with calls := m.calls ++ [call] } ⟨n.play, n.threads ++ [⟨first, false⟩]⟩
      (Function.update place m.calls.length n.threads.length) k := by
  have happend := h.append hstands.outer_eq
  refine ⟨happend.play, ?_, ?_, happend.sweeps, happend.quiet⟩
  · intro i i' hi hi' heq
    rw [List.length_append, List.length_singleton] at hi hi'
    simp only [Function.update_apply] at heq
    split at heq <;> split at heq
    next hlast hlast' => rw [hlast, hlast']
    next hlast hnew =>
      have hlt := h.place_lt (i := i') (by omega)
      omega
    next hnew hlast =>
      have hlt := h.place_lt (i := i) (by omega)
      omega
    next hnew hnew' => exact h.inj i i' (by omega) (by omega) heq
  · intro i last hc
    rw [List.getElem?_append] at hc
    split at hc
    next hlt =>
      rw [Function.update_of_ne (Nat.ne_of_lt hlt)]
      exact happend.stands i last hc
    next hge =>
      obtain rfl := List.mem_singleton.mp (List.mem_of_getElem? hc)
      obtain rfl : i = m.calls.length := by
        have hlt := (List.getElem?_eq_some_iff.mp hc).1
        rw [List.length_singleton] at hlt
        omega
      rw [Function.update_self]
      exact ⟨first, by simp, hstands⟩

-- A thread begins and goes on to a point where it holds nothing.
theorem visit (h : Mirrors m n place k) (run : Run playStep free start record n)
    (call : PlayCall) (houter : call.start.outer = []) (houter' : point'.outer = [])
    (hgoes : Goes m.sweeper.holds (m.play, call.start) (after.play, point'))
    (hcalls : after.calls = m.calls) (hsweeper : after.sweeper = m.sweeper) :
    ∃ record' n', Run playStep free start record' n' ∧ Mirrors after n' place k := by
  have hnew : (n.threads ++ [⟨call.start, false⟩])[n.threads.length]? = some ⟨call.start, false⟩ := by
    simp
  have happend := h.append houter
  rw [← h.play] at hgoes
  have hsteps := hgoes.steps Play.program_nested (happend.aside n.threads.length) hnew
  have hbegun : playStep n (.call call) = some (⟨n.play, n.threads ++ [⟨call.start, false⟩]⟩, ()) :=
    rfl
  obtain ⟨record', run'⟩ := exists_run_of_steps (run.next trivial hbegun) hsteps
  refine ⟨record', _, run', happend.set hnew houter houter' (by rw [hcalls]) hsweeper ?_⟩
  intro i call hc
  rw [hcalls] at hc
  refine .inr ⟨Nat.ne_of_lt (h.place_lt ?_), hc⟩
  exact (List.getElem?_eq_some_iff.mp hc).1

-- A step of a call is made by its thread.
theorem advance (h : Mirrors m n place k) (run : Run playStep free start record n)
    {env : RequestEnv} (hs : m.advance i env = some (after, shown)) :
    ∃ record' n', Run playStep free start record' n' ∧ Mirrors after n' place k := by
  obtain ⟨call, hc⟩ : ∃ call, m.calls[i]? = some call := by
    cases hc : m.calls[i]? with
    | none => simp [Mngr.advance, hc] at hs
    | some call => exact ⟨call, rfl⟩
  obtain ⟨point, hthread, hstands⟩ := h.stands i call hc
  obtain ⟨call', point', hafter, hnext, hgoes⟩ := advance_goes hs hc hstands
  rw [← h.play] at hgoes
  have hsteps := hgoes.steps Play.program_nested (h.aside (place i)) hthread
  obtain ⟨record', run'⟩ := exists_run_of_steps run hsteps
  have hcalls : after.calls = m.calls.set i call' := by rw [hafter]; rfl
  have hlt : i < m.calls.length := (List.getElem?_eq_some_iff.mp hc).1
  refine ⟨record', _, run', h.set hthread hstands.outer_eq hnext.outer_eq ?_ ?_ ?_⟩
  · rw [hcalls, List.length_set]
  · rw [hafter]
    rfl
  · intro x other hx
    rw [hcalls] at hx
    by_cases he : i = x
    · subst he
      rw [List.getElem?_set_self hlt] at hx
      obtain rfl := Option.some.inj hx
      exact .inl ⟨rfl, hnext⟩
    · rw [List.getElem?_set_ne he] at hx
      refine .inr ⟨fun hplace => he (h.inj x i ?_ hlt hplace).symm, hx⟩
      exact (List.getElem?_eq_some_iff.mp hx).1

-- The state thread comes to another point of its sweep.
theorem swept (h : Mirrors m n place k) (hlt : j < n.threads.length)
    (hothers : ∀ x other, n.threads[x]? = some other → x ≠ j → Play.program.held other = [])
    (hplaces : ∀ i, i < m.calls.length → place i ≠ j) (hcalls : after.calls = m.calls) :
    Mirrors after ⟨after.play, n.threads.set j ⟨after.sweeper.point, false⟩⟩ place j where
  play := rfl
  inj := by
    rw [hcalls]
    exact h.inj
  stands i call hc := by
    rw [hcalls] at hc
    obtain ⟨point, hthread, hstands⟩ := h.stands i call hc
    have hne := hplaces i (List.getElem?_eq_some_iff.mp hc).1
    exact ⟨point, (List.getElem?_set_ne hne.symm).trans hthread, hstands⟩
  sweeps _ := List.getElem?_set_self hlt
  quiet x other hx := by
    by_cases he : j = x
    · subst he
      rw [List.getElem?_set_self hlt] at hx
      obtain rfl := Option.some.inj hx
      cases hsweeper : after.sweeper with
      | idle => exact .inl rfl
      | visit keys => exact .inr ⟨rfl, rfl⟩
      | reap key rest => exact .inr ⟨rfl, rfl⟩
    · rw [List.getElem?_set_ne he] at hx
      exact .inl (hothers x other hx (Ne.symm he))

theorem sweep (h : Mirrors m n place k) (run : Run playStep free start record n) {env : SweepEnv}
    (hs : m.sweep env = some (after, shown)) :
    ∃ record' n' k', Run playStep free start record' n' ∧ Mirrors after n' place k' := by
  have hgoes := sweep_goes hs
  have hcalls := sweep_calls hs
  rw [← h.play] at hgoes
  cases hholds : m.sweeper.holds with
  | false =>
      -- a sweep begins
      have hquiet : ∀ (x : Nat) other, n.threads[x]? = some other → Play.program.held other = [] := by
        intro x other hx
        rcases h.quiet x other hx with hheld | ⟨htrue, -⟩
        · exact hheld
        · rw [hholds] at htrue
          cases htrue
      have hidle : m.sweeper = .idle := by
        cases hsweeper : m.sweeper with
        | idle => rfl
        | _ =>
            rw [hsweeper] at hholds
            cases hholds
      rw [hidle] at hgoes
      have hnew : (n.threads ++ [⟨.sweep .enter, false⟩])[n.threads.length]? =
          some ⟨.sweep .enter, false⟩ := by simp
      have happend : Mirrors m ⟨n.play, n.threads ++ [⟨.sweep .enter, false⟩]⟩ place k :=
        h.append rfl
      have hfree := happend.aside n.threads.length
      rw [hholds] at hfree
      have hsteps := hgoes.steps Play.program_nested hfree hnew
      have hbegun : playStep n (.call .sweep) =
          some (⟨n.play, n.threads ++ [⟨.sweep .enter, false⟩]⟩, ()) := rfl
      obtain ⟨record', run'⟩ := exists_run_of_steps (run.next trivial hbegun) hsteps
      refine ⟨record', _, n.threads.length, run', happend.swept (by simp) ?_ ?_ hcalls⟩
      · intro x other hx hne
        rw [List.getElem?_append] at hx
        split at hx
        · exact hquiet x other hx
        · rw [List.mem_singleton.mp (List.mem_of_getElem? hx)]
          rfl
      · exact fun i hi => Nat.ne_of_lt (h.place_lt hi)
  | true =>
      have hk := h.sweeps hholds
      have hentry : m.sweeper.entry = m.sweeper.point := by
        cases hsweeper : m.sweeper with
        | idle =>
            rw [hsweeper] at hholds
            cases hholds
        | _ => rfl
      rw [hentry] at hgoes
      have hothers : ∀ (x : Nat) other, n.threads[x]? = some other → x ≠ k →
          Play.program.held other = [] := by
        intro x other hx hne
        rcases h.quiet x other hx with hheld | ⟨-, he⟩
        · exact hheld
        · exact absurd he hne
      have hfree : Play.program.OthersAside (fun l => l = .rooms → false = false) n.threads k := by
        intro x other hx hne l hl
        rw [hothers x other hx hne] at hl
        cases hl
      have hsteps := hgoes.steps Play.program_nested hfree hk
      obtain ⟨record', run'⟩ := exists_run_of_steps run hsteps
      have hlt := (List.getElem?_eq_some_iff.mp hk).1
      refine ⟨record', _, k, run', h.swept hlt hothers (fun i hi => ?_) hcalls⟩
      obtain ⟨point, hthread, hstands⟩ := h.stands i m.calls[i] (List.getElem?_eq_getElem hi)
      exact h.ne_sweeper hthread hstands.outer_eq hholds

-- A thread that does its work on the connection table and is over.
theorem connect (h : Mirrors m n place k) (run : Run playStep free start record n)
    (call : PlayCall) (houter : call.start.outer = []) {connections : Connections}
    (hgoes : Goes m.sweeper.holds (m.play, call.start) ({ m.play with connections }, .calls [])) :
    ∃ record' n', Run playStep free start record' n' ∧ Mirrors { m with connections } n' place k :=
  h.visit run call houter rfl hgoes rfl rfl

-- The connection is removed later, by the same thread.
theorem leave (h : Mirrors m n place k) (run : Run playStep free start record n) {s : Int}
    {roomid : String} {tick : UInt64} (hroomid : m.connections.getValue s "roomid" = some roomid)
    (hs : m.leave s roomid tick = some (after, shown)) :
    ∃ record' n', Run playStep free start record' n' ∧ Mirrors after n' place k := by
  have hread : m.play.connections.getValue s "roomid" = some roomid := hroomid
  by_cases hempty : roomid = ""
  · subst hempty
    obtain rfl : after = m := by
      unfold Mngr.leave at hs
      split at hs
      · cases hs
      · cases hs
        rfl
    have hgoes : Goes after.sweeper.holds (after.play, .disconnect s .roomid)
        (after.play, .calls [.removeConnection s]) := by
      refine goes_of_exec {} ?_ rfl
      simp [Play.exec, Play.onDisconnect, hread]
    exact h.visit run (.onDisconnect s) rfl rfl hgoes rfl rfl
  · obtain ⟨hholds, hcases⟩ := leave_cases hs hempty
    have hfirst : Goes m.sweeper.holds (m.play, .disconnect s .roomid)
        (m.play, .disconnect s (.rooms roomid)) := by
      refine goes_of_exec {} ?_ rfl
      simp [Play.exec, Play.onDisconnect, hread, hempty]
    have hleft : Goes m.sweeper.holds (m.play, .disconnect s (.rooms roomid))
        (after.play, .calls [.removeConnection s]) := by
      rw [hholds]
      exact disconnect_goes hs hempty
    refine h.visit run (.onDisconnect s) rfl rfl (hfirst.trans hleft) ?_ ?_
    · obtain ⟨-, rfl⟩ | ⟨p, room, -, -, rfl⟩ := hcases
      · rfl
      · rfl
    · obtain ⟨-, rfl⟩ | ⟨p, room, -, -, rfl⟩ := hcases
      · rfl
      · rfl

theorem step (h : Mirrors m n place k) (run : Run playStep free start record n)
    {history : CallHistory} {event : CallEvent} (hguard : leavesOwn history m event)
    (hs : callStep m event = some (after, shown)) :
    ∃ record' n' place' k', Run playStep free start record' n' ∧ Mirrors after n' place' k' := by
  cases event with
  | join s c d =>
      cases hs
      have hbegun : playStep n (.call (.joinLiveroom s c d)) =
          some (⟨n.play, n.threads ++ [⟨.join s c d .check, false⟩]⟩, ()) := rfl
      exact ⟨_, _, _, k, run.next trivial hbegun, h.began (.joinCheck s c d)⟩
  | quit s c d =>
      cases hs
      have hbegun : playStep n (.call (.quitLiveroom s c d)) =
          some (⟨n.play, n.threads ++ [⟨.quit s c d .check, false⟩]⟩, ()) := rfl
      exact ⟨_, _, _, k, run.next trivial hbegun, h.began (.quitCheck s c d)⟩
  | notifyHls token =>
      cases hs
      have hbegun : playStep n (.call (.notifyHls token)) =
          some (⟨n.play, n.threads ++ [⟨.hls (.search token), false⟩]⟩, ()) := rfl
      exact ⟨_, _, _, k, run.next trivial hbegun, h.began (.hlsSearch token)⟩
  | advance i env =>
      obtain ⟨record', n', run', hn⟩ := h.advance run hs
      exact ⟨record', n', place, k, run', hn⟩
  | sweep env =>
      obtain ⟨record', n', k', run', hn⟩ := h.sweep run hs
      exact ⟨record', n', place, k', run', hn⟩
  | leave s roomid tick =>
      obtain ⟨record', n', run', hn⟩ := h.leave run hguard hs
      exact ⟨record', n', place, k, run', hn⟩
  | established s tick =>
      obtain ⟨w, hw, he⟩ := Option.map_eq_some_iff.mp hs
      cases he
      simp only [Service.onConnectWrapper, Option.bind_eq_bind, Option.bind_eq_some_iff,
        Option.pure_def, Option.some.injEq] at hw
      obtain ⟨valued, hvalue, stamped, hstamp, rfl⟩ := hw
      have hinsert : Goes m.sweeper.holds (m.play, (PlayCall.onConnect s).start)
          ({ m.play with connections := m.connections.insert s (some { socketid := s }) },
            .calls [.setValue s "handle" ("User #" ++ toString s), .updateTimestamp s]) :=
        goes_call 0 rfl _
      have hset : Goes m.sweeper.holds
          ({ m.play with connections := m.connections.insert s (some { socketid := s }) },
            .calls [.setValue s "handle" ("User #" ++ toString s), .updateTimestamp s])
          ({ m.play with connections := valued }, .calls [.updateTimestamp s]) := by
        refine goes_call 0 ?_ _
        exact congrArg (Option.map fun connections => (connections, [])) hvalue
      have hupdate : Goes m.sweeper.holds
          ({ m.play with connections := valued }, .calls [.updateTimestamp s])
          ({ m.play with connections := stamped }, .calls []) :=
        goes_call tick (by simp [ServerCall.exec, hstamp]) _
      obtain ⟨record', n', run', hn⟩ :=
        h.connect run (.onConnect s) rfl ((hinsert.trans hset).trans hupdate)
      exact ⟨record', n', place, k, run', hn⟩
  | removeConnection s =>
      cases hs
      have hgoes : Goes m.sweeper.holds (m.play, .calls [.removeConnection s])
          ({ m.play with connections := m.connections.removeConnection s }, .calls []) :=
        goes_call 0 rfl []
      obtain ⟨record', n', run', hn⟩ := h.connect run (.removeConnection s) rfl hgoes
      exact ⟨record', n', place, k, run', hn⟩
  | adapter event =>
      obtain ⟨⟨server, frames⟩, -, he⟩ := Option.map_eq_some_iff.mp hs
      cases he
      exact ⟨record, n, place, k, run, ⟨h.play, h.inj, h.stands, h.sweeps, h.quiet⟩⟩

end Mirrors

-- Every run of the calls is a run of the threads: they can stand where the calls stand, with the
-- same connections, rooms and heap.
theorem calls_mirrored {first : Mngr} {history : CallHistory} (hcalls : first.calls = [])
    (hidle : first.sweeper = .idle) (run : Run callStep leavesOwn first history m) :
    ∃ record n place k, Run playStep free { play := first.play } record n ∧ Mirrors m n place k := by
  refine Run.invariant (fun _ m => ∃ record n place k,
    Run playStep free { play := first.play } record n ∧ Mirrors m n place k) ?_ ?_ run
  · refine ⟨[], _, id, 0, .init, rfl, fun i i' _ _ he => he, ?_, ?_, ?_⟩
    · intro i call hc
      rw [hcalls] at hc
      cases hc
    · intro hholds
      rw [hidle] at hholds
      cases hholds
    · intro j other hj
      cases hj
  · rintro history before event after shown ⟨record, n, place, k, hrun, hn⟩ hguard hs
    exact hn.step hrun hguard hs

end VideoAdapter.Wss

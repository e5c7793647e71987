import VideoAdapter.Lib.Run
import VideoAdapter.Wss.Locks

namespace VideoAdapter.Wss

open Lib

-- In `send`, with a room's mutex around it.
def PlayPoint.sends : PlayPoint → Bool
  | .hls (.send ..) => true
  | _ => false

-- In `onTimeout`, with the server's mutex around it.
def PlayPoint.timesOut : PlayPoint → Bool
  | .check _ (.timeout ..) => true
  | .check _ (.quit ..) => true
  | _ => false

def broadcasting (threads : List (Standing PlayPoint)) : Bool := threads.any (·.point.sends)

def timingOut (threads : List (Standing PlayPoint)) : Bool := threads.any (·.point.timesOut)

namespace Play

-- The thread is at an entry of the connection table whose time is over.
def callsOnTimeout (m : Play) : PlayPoint → Bool
  | .check cur (.loop (key :: _)) => (m.connections[key]?.join).any (·.overdue cur)
  | _ => false

-- The thread is at a user of the room that it sends to.
def callsSend (m : Play) : PlayPoint → Bool
  | .hls (.loop p _ i) => (m.room p).any fun room => (room.users[i]?).isSome
  | _ => false

end Play

-- `CheckConnectionState` does not call `onTimeout` while a `NotifyHls` is in a `send`, and
-- `NotifyHls` does not call `send` while a `CheckConnectionState` is in an `onTimeout`.
def apart (_ : List (PlayEvent × Unit)) (m : Playing) : PlayEvent → Prop
  | .call _ => True
  | .advance i _ => ∀ thread ∈ m.threads[i]?,
      (m.play.callsOnTimeout thread.point → ¬ broadcasting m.threads) ∧
        (m.play.callsSend thread.point → ¬ timingOut m.threads)

instance (history : List (PlayEvent × Unit)) (m : Playing) (event : PlayEvent) :
    Decidable (apart history m event) :=
  match event with
  | .call _ => isTrue trivial
  | .advance i _ => inferInstanceAs (Decidable (∀ thread ∈ m.threads[i]?,
      (m.play.callsOnTimeout thread.point → ¬ broadcasting m.threads) ∧
        (m.play.callsSend thread.point → ¬ timingOut m.threads)))

-- What a step that leaves a point can do: it takes no mutex, and it gets into `send` and into
-- `onTimeout` from the loops around them only.
structure Leaves (m : Play) (point next : PlayPoint) : Prop where
  releases : next.outer ⊆ point.takes.toList ++ point.outer
  sends : next.sends → m.callsSend point
  timesOut : next.timesOut → m.callsOnTimeout point ∨ point.timesOut

namespace Leaves

variable {m after : Play} {env : PlayEnv} {point next : PlayPoint}

-- Where nothing is held at the next point, it is in neither of the two.
theorem of_outer (h : next.outer = []) : Leaves m point next where
  releases := by simp [h]
  sends hs := by
    cases next with
    | hls pc =>
        cases pc with
        | send p resp i user => cases h
        | _ => cases hs
    | _ => cases hs
  timesOut ht := by
    cases next with
    | check cur pc =>
        cases pc with
        | timeout key rest socketid roomid => cases h
        | quit key rest socketid p => cases h
        | _ => cases ht
    | _ => cases ht

theorem checkConnectionState {cur : UInt64} {pc : CheckPoint}
    (h : m.checkConnectionState cur env pc = some (after, next)) : Leaves m (.check cur pc) next := by
  cases pc with
  | enter =>
      cases h
      refine ⟨?_, nofun, nofun⟩
      simp [PlayPoint.outer, PlayPoint.takes, CheckPoint.outer, CheckPoint.takes]
  | loop keys =>
      cases keys with
      | nil =>
          cases h
          exact of_outer rfl
      | cons key rest =>
          simp only [Play.checkConnectionState] at h
          split at h
          · cases h
            exact ⟨by simp [PlayPoint.outer, CheckPoint.outer], nofun, nofun⟩
          · cases h
          next c hc =>
            split at h
            next hover =>
              cases h
              refine ⟨by simp [PlayPoint.outer, CheckPoint.outer], nofun, fun _ => .inl ?_⟩
              simpa [Play.callsOnTimeout, hc] using hover
            next hover =>
              cases h
              exact ⟨by simp [PlayPoint.outer, CheckPoint.outer], nofun, nofun⟩
  | timeout key rest socketid roomid =>
      simp only [Play.checkConnectionState] at h
      split at h <;> cases h
      · exact ⟨by simp [PlayPoint.outer, CheckPoint.outer], nofun, nofun⟩
      · refine ⟨?_, nofun, fun _ => .inr rfl⟩
        simp [PlayPoint.outer, PlayPoint.takes, CheckPoint.outer, CheckPoint.takes]
  | quit key rest socketid p =>
      obtain ⟨room, -, heq⟩ := Option.map_eq_some_iff.mp h
      cases heq
      exact ⟨by simp [PlayPoint.outer, CheckPoint.outer], nofun, nofun⟩
  | clear key rest =>
      obtain ⟨connections, -, heq⟩ := Option.map_eq_some_iff.mp h
      cases heq
      exact ⟨by simp [PlayPoint.outer, CheckPoint.outer], nofun, nofun⟩

theorem notifyHls {pc : HlsPoint} (h : m.notifyHls pc = some (after, next)) :
    Leaves m (.hls pc) next := by
  cases pc with
  | search token =>
      simp only [Play.notifyHls] at h
      split at h <;> cases h <;> exact of_outer rfl
  | ready p =>
      obtain ⟨room, -, heq⟩ := Option.map_eq_some_iff.mp h
      cases heq
      exact of_outer rfl
  | size p =>
      obtain ⟨room, -, heq⟩ := Option.map_eq_some_iff.mp h
      cases heq
      exact of_outer rfl
  | users p isize =>
      obtain ⟨room, -, heq⟩ := Option.map_eq_some_iff.mp h
      cases heq
      refine ⟨?_, nofun, nofun⟩
      simp [PlayPoint.outer, PlayPoint.takes, HlsPoint.outer, HlsPoint.takes]
  | loop p resp i =>
      obtain ⟨room, hroom, heq⟩ := Option.map_eq_some_iff.mp h
      split at heq <;> cases heq
      · exact of_outer rfl
      next user huser =>
        refine ⟨by simp [PlayPoint.outer, HlsPoint.outer], fun _ => ?_, nofun⟩
        simp [Play.callsSend, hroom, huser]
  | send p resp i user =>
      obtain ⟨connections, -, heq⟩ := Option.map_eq_some_iff.mp h
      cases heq
      exact ⟨by simp [PlayPoint.outer, HlsPoint.outer], nofun, nofun⟩

-- A join holds one mutex at a time, and so does a quit.
theorem joinLiveroom {socketid : Int} {cmsid devid : String} {pc : JoinPoint}
    (h : m.joinLiveroom socketid cmsid devid env pc = some (after, next)) : next.outer = [] := by
  cases pc with
  | check =>
      cases h
      rfl
  | lookup ret =>
      simp only [Play.joinLiveroom] at h
      split_ifs at h
      · cases h
        rfl
      · cases h
        rfl
      · split at h <;> cases h <;> rfl
      · cases h
        rfl
  | start =>
      simp only [Play.joinLiveroom] at h
      split at h <;> cases h <;> rfl
  | store p token count =>
      cases h
      rfl
  | _ =>
      obtain ⟨room, -, heq⟩ := Option.map_eq_some_iff.mp h
      cases heq
      rfl

theorem quitLiveroom {socketid : Int} {cmsid devid : String} {pc : QuitPoint}
    (h : m.quitLiveroom socketid cmsid devid env pc = some (after, next)) : next.outer = [] := by
  cases pc with
  | check =>
      cases h
      rfl
  | lookup ret =>
      simp only [Play.quitLiveroom] at h
      split_ifs at h
      · split at h <;> cases h <;> rfl
      · cases h
        rfl
  | found p =>
      obtain ⟨room, -, heq⟩ := Option.map_eq_some_iff.mp h
      cases heq
      rfl

theorem onDisconnect {socketID : Int} {pc : DisconnectPoint}
    (h : m.onDisconnect socketID env pc = some (after, next)) :
    Leaves m (.disconnect socketID pc) next := by
  cases pc with
  | roomid =>
      obtain ⟨roomid, -, heq⟩ := Option.map_eq_some_iff.mp h
      split at heq <;> cases heq <;> exact of_outer rfl
  | rooms roomid =>
      simp only [Play.onDisconnect] at h
      split at h <;> cases h
      · exact of_outer rfl
      · refine ⟨?_, nofun, nofun⟩
        simp [PlayPoint.outer, PlayPoint.takes, DisconnectPoint.outer, DisconnectPoint.takes]
  | quit p =>
      obtain ⟨room, -, heq⟩ := Option.map_eq_some_iff.mp h
      cases heq
      exact of_outer rfl

-- The sweep holds `roomlock_` from the first room to the last.
theorem sweep {pc : SweepPoint} (h : m.sweep env pc = some (after, next)) :
    Leaves m (.sweep pc) next := by
  have hkeeps : ∀ {pc' : SweepPoint}, next = .sweep pc' → Leaves m (.sweep pc) next := by
    rintro pc' rfl
    refine ⟨?_, nofun, nofun⟩
    cases pc' <;> cases pc <;>
      simp [PlayPoint.outer, PlayPoint.takes, SweepPoint.outer, SweepPoint.takes]
  cases pc with
  | enter =>
      cases h
      exact hkeeps rfl
  | loop keys =>
      cases keys with
      | nil =>
          cases h
          exact of_outer rfl
      | cons key rest =>
          simp only [Play.sweep] at h
          split at h
          · cases h
            exact hkeeps rfl
          · obtain ⟨room, -, heq⟩ := Option.map_eq_some_iff.mp h
            cases heq
            exact hkeeps rfl
  | reap key rest p cur size =>
      obtain ⟨room, -, heq⟩ := Option.map_eq_some_iff.mp h
      split at heq <;> cases heq <;> exact hkeeps rfl
  | _ =>
      obtain ⟨room, -, heq⟩ := Option.map_eq_some_iff.mp h
      cases heq
      exact hkeeps rfl

theorem exec (h : m.exec point env = some (after, next)) : Leaves m point next := by
  cases point with
  | check cur pc => exact checkConnectionState h
  | hls pc => exact notifyHls h
  | join socketid cmsid devid pc => exact of_outer (joinLiveroom h)
  | quit socketid cmsid devid pc => exact of_outer (quitLiveroom h)
  | disconnect socketID pc => exact onDisconnect h
  | sweep pc => exact sweep h
  | calls rest =>
      cases rest with
      | nil => cases h
      | cons first rest =>
          obtain ⟨result, -, heq⟩ := Option.map_eq_some_iff.mp h
          cases heq
          exact of_outer rfl

end Leaves

theorem Play.program_releases : Play.program.Releases := fun h => (Leaves.exec h).releases

-- The mutexes exclude each other in every run, whatever calls there are.
theorem playing_exclusive {history : List (PlayEvent × Unit)} {m : Playing}
    (run : Run playStep free {} history m) : Play.program.Exclusive m.threads := by
  refine Run.invariant (fun _ m => Play.program.Exclusive m.threads) ?_ ?_ run
  · intro i j thread other l hi
    cases hi
  · intro history before event after output hbefore _ hs
    cases event with
    | call call =>
        cases hs
        exact hbefore.append (by cases call <;> rfl)
    | advance i env =>
        obtain ⟨⟨play, threads⟩, hstep, heq⟩ := Option.map_eq_some_iff.mp hs
        cases heq
        exact hbefore.step Play.program_releases hstep

-- The order of the mutexes while messages are sent from a room, and while none is.
def sendRank : PlayLock → Nat
  | .rooms => 0
  | .room _ => 1
  | .server => 2

def timeoutRank : PlayLock → Nat
  | .server => 0
  | .rooms => 1
  | .room _ => 2

def Apart (threads : List (Standing PlayPoint)) : Prop :=
  ¬ (broadcasting threads ∧ timingOut threads)

namespace Apart

variable {threads last : List (Standing PlayPoint)} {m after : Play} {i : Nat} {env : PlayEnv}

theorem held_of_wants {thread : Standing PlayPoint} {l : PlayLock}
    (h : Play.program.wants thread = some l) :
    thread.point.takes = some l ∧ Play.program.held thread = thread.point.outer := by
  unfold LockProgram.wants at h
  split at h
  · cases h
  next hentered => exact ⟨h, by rw [LockProgram.held, if_neg hentered]; rfl⟩

-- A mutex is taken inside another one in `onTimeout`, in `send`, and by a thread that takes a
-- room's mutex under `roomlock_`.
theorem nesting {point : PlayPoint} {l held : PlayLock} (htakes : point.takes = some l)
    (hheld : held ∈ point.outer) :
    point.timesOut ∧ timeoutRank held < timeoutRank l ∨
      point.sends ∧ sendRank held < sendRank l ∨ held = .rooms ∧ ∃ p, l = .room p := by
  cases point with
  | check cur pc =>
      refine .inl ?_
      cases pc with
      | timeout key rest socketid roomid =>
          cases htakes
          obtain rfl := List.mem_singleton.mp hheld
          exact ⟨rfl, by decide⟩
      | quit key rest socketid p =>
          cases htakes
          refine ⟨rfl, ?_⟩
          rcases List.mem_pair.mp hheld with rfl | rfl
          · exact Nat.lt_succ_self 1
          · exact Nat.zero_lt_two
      | enter => cases hheld
      | _ => cases htakes
  | hls pc =>
      refine .inr (.inl ?_)
      cases pc with
      | send p resp i user =>
          cases htakes
          obtain rfl := List.mem_singleton.mp hheld
          exact ⟨rfl, Nat.lt_succ_self 1⟩
      | loop p resp i => cases htakes
      | _ => cases hheld
  | disconnect socketID pc =>
      refine .inr (.inr ?_)
      cases pc with
      | quit p =>
          cases htakes
          exact ⟨List.mem_singleton.mp hheld, p, rfl⟩
      | _ => cases hheld
  | sweep pc =>
      refine .inr (.inr ?_)
      cases pc with
      | enter => cases hheld
      | size key rest p cur =>
          cases htakes
          exact ⟨List.mem_singleton.mp hheld, p, rfl⟩
      | showUsers rest p =>
          cases htakes
          exact ⟨List.mem_singleton.mp hheld, p, rfl⟩
      | _ => cases htakes
  | _ => cases hheld

theorem deadlockFree (h : Apart threads) :
    DeadlockFree Play.program.held Play.program.wants threads := by
  by_cases hsends : broadcasting threads
  · -- nobody is in `onTimeout`, so nobody wants anything with the server's mutex
    refine deadlockFree_of_rank sendRank fun thread hthread l hwants held hheld => ?_
    obtain ⟨htakes, houter⟩ := held_of_wants hwants
    rcases nesting htakes (houter ▸ hheld) with ⟨htimes, -⟩ | ⟨-, hlt⟩ | ⟨rfl, p, rfl⟩
    · exact absurd ⟨hsends, List.any_eq_true.mpr ⟨thread, hthread, htimes⟩⟩ h
    · exact hlt
    · exact Nat.zero_lt_one
  · refine deadlockFree_of_rank timeoutRank fun thread hthread l hwants held hheld => ?_
    obtain ⟨htakes, houter⟩ := held_of_wants hwants
    rcases nesting htakes (houter ▸ hheld) with ⟨-, hlt⟩ | ⟨hsend, -⟩ | ⟨rfl, p, rfl⟩
    · exact hlt
    · exact absurd (List.any_eq_true.mpr ⟨thread, hthread, hsend⟩) hsends
    · exact Nat.lt_succ_self 1

-- A thread gets to a new point; whoever is in one of the two then was there before, or is it.
theorem any_set {p : Standing PlayPoint → Bool} {next : Standing PlayPoint}
    (h : (threads.set i next).any p) : p next ∨ threads.any p := by
  obtain ⟨thread, hmem, hp⟩ := List.any_eq_true.mp h
  rcases List.mem_or_eq_of_mem_set hmem with hmem | rfl
  · exact .inr (List.any_eq_true.mpr ⟨thread, hmem, hp⟩)
  · exact .inl hp

theorem not_both (point : PlayPoint) : ¬ (point.sends ∧ point.timesOut) := by
  rintro ⟨hsends, htimes⟩
  cases point with
  | check cur pc => cases hsends
  | hls pc => cases htimes
  | _ => cases hsends

theorem advance (h : Apart threads)
    (hguard : ∀ thread ∈ threads[i]?, (m.callsOnTimeout thread.point → ¬ broadcasting threads) ∧
      (m.callsSend thread.point → ¬ timingOut threads))
    (hs : Play.program.step m threads i env = some (after, last)) : Apart last := by
  obtain ⟨thread, hthread, hstep⟩ := LockProgram.step_cases hs
  have hmem := List.mem_of_getElem? hthread
  obtain ⟨htimeout, hsend⟩ := hguard thread hthread
  rcases hstep with ⟨l, -, -, -, rfl⟩ | ⟨next, -, hexec, rfl⟩
  · -- the thread stays where it is
    rintro ⟨hsends, htimes⟩
    refine h ⟨?_, ?_⟩
    · rcases any_set hsends with hpoint | hany
      · exact List.any_eq_true.mpr ⟨thread, hmem, hpoint⟩
      · exact hany
    · rcases any_set htimes with hpoint | hany
      · exact List.any_eq_true.mpr ⟨thread, hmem, hpoint⟩
      · exact hany
  · have hleaves := Leaves.exec hexec
    rintro ⟨hsends, htimes⟩
    rcases any_set hsends with hsends | hsends
    · have hno := hsend (hleaves.sends hsends)
      rcases any_set htimes with htimes | htimes
      · exact not_both next ⟨hsends, htimes⟩
      · exact hno htimes
    · rcases any_set htimes with htimes | htimes
      · rcases hleaves.timesOut htimes with hcalls | hwas
        · exact htimeout hcalls hsends
        · exact h ⟨hsends, List.any_eq_true.mpr ⟨thread, hmem, hwas⟩⟩
      · exact h ⟨hsends, htimes⟩

theorem call (h : Apart threads) (call : PlayCall) : Apart (threads ++ [⟨call.start, false⟩]) := by
  have hstart : call.start.sends = false ∧ call.start.timesOut = false := by
    cases call <;> exact ⟨rfl, rfl⟩
  rintro ⟨hsends, htimes⟩
  simp only [broadcasting, timingOut, List.any_append, List.any_cons, List.any_nil, hstart,
    Bool.or_false] at hsends htimes
  exact h ⟨hsends, htimes⟩

end Apart

theorem playing_deadlockFree {history : List (PlayEvent × Unit)} {m : Playing}
    (run : Run playStep apart {} history m) :
    DeadlockFree Play.program.held Play.program.wants m.threads := by
  refine Apart.deadlockFree (Run.invariant (fun _ m => Apart m.threads) ?_ ?_ run)
  · rintro ⟨hsends, -⟩
    cases hsends
  · intro history before event after output hbefore hguard hs
    cases event with
    | call call =>
        cases hs
        exact hbefore.call call
    | advance i env =>
        obtain ⟨⟨play, threads⟩, hstep, heq⟩ := Option.map_eq_some_iff.mp hs
        cases heq
        exact hbefore.advance hguard hstep

def runThread (i steps : Nat) : List PlayEvent :=
  List.replicate steps (.advance i { ret := 102, start := .ok "t" })

-- A viewer connects and joins a room of its own, and its stream becomes ready: `NotifyHls` has
-- taken the room's mutex and is about to send.
def readySteps : List PlayEvent :=
  .call (.onConnect 7) :: runThread 0 6 ++ .call (.joinLiveroom 7 "A" "d") :: runThread 1 14 ++
    .call (.notifyHls "t") :: runThread 2 8

def sendingThread : Standing PlayPoint := ⟨.hls (.send 0 (joinReply true "t" 1) 0 7), false⟩

def checkingThread (cur : UInt64) (pc : CheckPoint) : Standing PlayPoint := ⟨.check cur pc, false⟩

def standAt (checking : Standing PlayPoint) (_ : List (PlayEvent × Unit)) (m : Playing) : Bool :=
  decide (m.threads[2]? = some sendingThread ∧ m.threads[3]? = some checking)

def checkSteps (cur : UInt64) (steps : Nat) : List PlayEvent :=
  .call (.checkConnectionState cur) :: runThread 3 steps

-- `NotifyHls` waits for a `CheckConnectionState` that finds nobody whose time is over.
theorem playing_deadlockFree_waiting :
    ∃ history m, Run playStep apart {} history m ∧
      WaitsFor Play.program.held Play.program.wants m.threads 2 3 ∧
      DeadlockFree Play.program.held Play.program.wants m.threads := by
  obtain ⟨history, m, run, htest⟩ := exists_run_of_ends playStep apart {}
    (readySteps ++ checkSteps 30000 3) (standAt (checkingThread 30000 (.loop [])))
    (guarded_of_passes (fun history m event => decide (apart history m event))
      (fun _ _ _ h => of_decide_eq_true h) (by decide +kernel)) (by decide +kernel)
  obtain ⟨hsending, hchecking⟩ := of_decide_eq_true htest
  refine ⟨history, m, run, ?_, playing_deadlockFree run⟩
  exact ⟨sendingThread, _, .server, hsending, hchecking, rfl, by decide⟩

-- The viewer's time is over. `CheckConnectionState` has the server's mutex and wants the room's,
-- `NotifyHls` has the room's and wants the server's.
theorem playing_deadlocks :
    ∃ history m, Run playStep free {} history m ∧
      WaitsFor Play.program.held Play.program.wants m.threads 2 3 ∧
      WaitsFor Play.program.held Play.program.wants m.threads 3 2 ∧
      ¬ DeadlockFree Play.program.held Play.program.wants m.threads := by
  obtain ⟨history, m, run, htest⟩ := exists_run_of_ends playStep free {}
    (readySteps ++ checkSteps 30001 5) (standAt (checkingThread 30001 (.quit 7 [] 7 0)))
    (guarded_free _ _ _) (by decide +kernel)
  obtain ⟨hsending, hchecking⟩ := of_decide_eq_true htest
  have hfirst : WaitsFor Play.program.held Play.program.wants m.threads 2 3 :=
    ⟨sendingThread, _, .server, hsending, hchecking, rfl, by decide⟩
  have hsecond : WaitsFor Play.program.held Play.program.wants m.threads 3 2 :=
    ⟨_, sendingThread, .room 0, hchecking, hsending, rfl, by decide⟩
  exact ⟨history, m, run, hfirst, hsecond, not_deadlockFree hfirst hsecond⟩

end VideoAdapter.Wss

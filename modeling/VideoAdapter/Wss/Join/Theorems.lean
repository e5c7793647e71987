import VideoAdapter.Wss.Join.Phases

namespace VideoAdapter.Wss

open Adapter Lib
open Service (RequestEnv)

-- Where a call can stand after its check has found the device not playing.
def Pc.afterStart : Pc → Prop
  | .check => False
  | .lookup ret => ret = 102
  | .found _ => False
  | .joined _ _ => False
  | _ => True

-- The points where a call has its result and touches neither the device nor `rooms_` any
-- more, or is about to create its room.
def Pc.settled : Pc → Prop
  | .create _ => True
  | .reply _ => True
  | .accept _ => True
  | .done _ => True
  | _ => False

-- What remains true of all calls that have found the device not playing, in any
-- interleaving: each of them puts a room of its own in the place of what is stored, and a
-- room that was created since the start has only one of them among its users.
structure Traced (key : String) (size : Nat) (starters : Int → Prop) (m : Joins) : Prop where
  pcs : ∀ s, starters s → ∃ pc, m.call s = some pc ∧ pc.afterStart
  starting : ∀ s, m.starting s → starters s
  fresh : ∀ s, starters s → m.call s ≠ some (.lookup 102) → ∀ p, m.rooms[key]? = some p → size ≤ p
  store : ∀ s p resp, m.call s = some (.store p resp) → size ≤ p
  users : ∀ (p : Nat) (room : LiveRoom), size ≤ p → m.heap[p]? = some (some room) →
    ∀ x ∈ room.users, m.call x ≠ some .check
  sole : ∀ (p : Nat) (room : LiveRoom), size ≤ p → m.heap[p]? = some (some room) →
    ∀ x ∈ room.users, ∀ y ∈ room.users, starters x → starters y → x = y
  length : size ≤ m.heap.length

variable {c d key : String} {m after : Joins} {s : Int} {env : RequestEnv} {pc next : Pc} {size : Nat}
  {starters : Int → Prop}

theorem Traced.not_starter (hv : Traced key size starters m) (hpc : m.call s = some pc)
    (hn : ¬ pc.afterStart) : ¬ starters s := by
  intro hs
  obtain ⟨pc', hpc', ha⟩ := hv.pcs s hs
  rw [hpc] at hpc'
  cases hpc'
  exact hn ha

-- A move that takes one call on, and changes neither the stored room nor the heap.
theorem Traced.goto (hv : Traced key size starters m) (hpc : m.call s = some pc)
    (hafter : starters s → next.afterStart)
    (hstarting : next = .lookup 102 ∨ next = .start → starters s)
    (hfresh : pc = .lookup 102 → m.rooms[key]? = none)
    (hstore : ∀ p resp, next = .store p resp → size ≤ p) (hcheck : next ≠ .check) :
    Traced key size starters (m.goto s next) := by
  refine ⟨?_, ?_, ?_, ?_, ?_, hv.sole, hv.length⟩
  · intro x hx
    by_cases hxs : x = s
    · exact ⟨next, by simp [hxs], hafter (hxs ▸ hx)⟩
    · simpa [hxs] using hv.pcs x hx
  · intro x hx
    by_cases hxs : x = s
    · rw [hxs]
      exact hstarting (by simpa [Joins.starting, hxs] using hx)
    · exact hv.starting x (by simpa [Joins.starting, hxs] using hx)
  · intro x hx hne p hp
    by_cases hxs : x = s
    · refine hv.fresh x hx (fun h102 => ?_) p hp
      rw [hxs, hpc] at h102
      rw [Joins.rooms_goto, hfresh (Option.some.inj h102)] at hp
      cases hp
    · exact hv.fresh x hx (by simpa [hxs] using hne) p hp
  · intro x p resp hx
    rw [Joins.call_goto] at hx
    split at hx
    · exact hstore p resp (Option.some.inj hx)
    · exact hv.store x p resp hx
  · intro p room hp hr x hx
    rw [Joins.call_goto]
    split
    · simpa using hcheck
    · exact hv.users p room hp hr x hx

theorem Traced.settle (hv : Traced key size starters m) (hpc : m.call s = some pc)
    (hfresh : pc = .lookup 102 → m.rooms[key]? = none) (hnext : next.settled) :
    Traced key size starters (m.goto s next) := by
  refine hv.goto hpc (fun _ => ?_) ?_ hfresh ?_ ?_
  · cases next <;> trivial
  · rintro (rfl | rfl) <;> exact hnext.elim
  · rintro p resp rfl
    exact hnext.elim
  · rintro rfl
    exact hnext.elim

-- The check that finds the device not playing.
theorem Traced.check (hv : Traced key size starters m) (hpc : m.call s = some .check) :
    Traced key size (fun x => starters x ∨ x = s) (m.goto s (.lookup 102)) := by
  have hold : ∀ x, (starters x ∨ x = s) → x ≠ s → starters x := fun x h hne => h.resolve_right hne
  refine ⟨?_, ?_, ?_, ?_, ?_, ?_, hv.length⟩
  · intro x hx
    by_cases hxs : x = s
    · exact ⟨.lookup 102, by simp [hxs], rfl⟩
    · simpa [hxs] using hv.pcs x (hold x hx hxs)
  · intro x hx
    by_cases hxs : x = s
    · exact .inr hxs
    · exact .inl (hv.starting x (by simpa [Joins.starting, hxs] using hx))
  · intro x hx hne
    by_cases hxs : x = s
    · simp [hxs] at hne
    · exact hv.fresh x (hold x hx hxs) (by simpa [hxs] using hne)
  · intro x p resp hx
    rw [Joins.call_goto] at hx
    split at hx
    · cases hx
    · exact hv.store x p resp hx
  · intro p room hp hr x hx
    rw [Joins.call_goto]
    split
    · simp
    · exact hv.users p room hp hr x hx
  · intro p room hp hr x hx y hy hsx hsy
    -- the call has joined no new room yet
    have hne : ∀ z ∈ room.users, z ≠ s := fun z hz hzs => hv.users p room hp hr z hz (hzs ▸ hpc)
    exact hv.sole p room hp hr x hx y hy (hold x hsx (hne x hx)) (hold y hsy (hne y hy))

theorem Traced.delete (hv : Traced key size starters m) :
    Traced key size starters (m.delete key) := by
  refine ⟨?_, ?_, ?_, ?_, ?_, ?_, by simpa using hv.length⟩
  · simpa using hv.pcs
  · simpa [Joins.starting] using hv.starting
  · intro x hx hne p hp
    rw [Joins.rooms_delete] at hp
    cases hp
  · simpa using hv.store
  · intro p room hp hr
    simpa using hv.users p room hp (Joins.heap_delete m key hr)
  · exact fun p room hp hr => hv.sole p room hp (Joins.heap_delete m key hr)

-- Fields that the calls do not look at.
theorem Traced.congr (hv : Traced key size starters m) (hrooms : after.rooms = m.rooms)
    (hheap : after.heap = m.heap) (hcalls : ∀ x, after.call x = m.call x) :
    Traced key size starters after := by
  refine ⟨?_, ?_, ?_, ?_, ?_, ?_, ?_⟩
  · simpa only [hcalls] using hv.pcs
  · simpa [Joins.starting, hcalls] using hv.starting
  · simpa only [hcalls, hrooms] using hv.fresh
  · simpa only [hcalls] using hv.store
  · simpa only [hcalls, hheap] using hv.users
  · rw [hheap]
    exact hv.sole
  · rw [hheap]
    exact hv.length

theorem Traced.append (hv : Traced key size starters m) {room : LiveRoom}
    (husers : room.users = [s]) (hpc : m.call s ≠ some .check) :
    Traced key size starters { m with heap := m.heap ++ [some room] } := by
  have hcell : ∀ (p : Nat) (r : LiveRoom), (m.heap ++ [some room])[p]? = some (some r) →
      m.heap[p]? = some (some r) ∨ r = room := by
    intro p r hr
    rw [List.getElem?_append] at hr
    split at hr
    · exact .inl hr
    · rw [List.getElem?_singleton] at hr
      split at hr
      · exact .inr (Option.some.inj (Option.some.inj hr)).symm
      · cases hr
  refine ⟨hv.pcs, hv.starting, hv.fresh, hv.store, ?_, ?_, ?_⟩
  · intro p r hp hr x hx
    rcases hcell p r hr with hold | rfl
    · exact hv.users p r hp hold x hx
    · rw [husers, List.mem_singleton] at hx
      exact hx ▸ hpc
  · intro p r hp hr x hx y hy hsx hsy
    rcases hcell p r hr with hold | rfl
    · exact hv.sole p r hp hold x hx y hy hsx hsy
    · rw [husers, List.mem_singleton] at hx hy
      rw [hx, hy]
  · have hlen := hv.length
    simp
    omega

theorem Traced.insert (hv : Traced key size starters m) {p : Nat} (hp : size ≤ p) :
    Traced key size starters { m with rooms := m.rooms.insert key p } := by
  refine ⟨hv.pcs, hv.starting, ?_, hv.store, hv.users, hv.sole, hv.length⟩
  intro x hx hne q hq
  simp only [Std.ExtTreeMap.getElem?_insert_self, Option.some.injEq] at hq
  exact hq ▸ hp

theorem Traced.join (hv : Traced key size starters m) {p : Nat} {room : LiveRoom}
    (hp : m.heap[p]? = some (some room)) (hs : ¬ starters s) (hpc : m.call s ≠ some .check) :
    Traced key size starters { m with heap := m.heap.set p (some (room.join s)) } := by
  have hcell : ∀ (q : Nat) (r : LiveRoom), (m.heap.set p (some (room.join s)))[q]? = some (some r) →
      m.heap[q]? = some (some r) ∨ q = p ∧ r = room.join s := by
    intro q r hr
    rw [List.getElem?_set] at hr
    split at hr
    · rename_i hpq
      split at hr
      · exact .inr ⟨hpq.symm, (Option.some.inj (Option.some.inj hr)).symm⟩
      · cases hr
    · exact .inl hr
  refine ⟨hv.pcs, hv.starting, hv.fresh, hv.store, ?_, ?_, ?_⟩
  · intro q r hq hr x hx
    rcases hcell q r hr with hold | ⟨rfl, rfl⟩
    · exact hv.users q r hq hold x hx
    · rcases (LiveRoom.mem_join _ _ _).mp hx with hx | rfl
      · exact hv.users q room hq hp x hx
      · exact hpc
  · intro q r hq hr x hx y hy hsx hsy
    rcases hcell q r hr with hold | ⟨rfl, rfl⟩
    · exact hv.sole q r hq hold x hx y hy hsx hsy
    · have hin : ∀ z ∈ (room.join s).users, starters z → z ∈ room.users := by
        intro z hz hsz
        rcases (LiveRoom.mem_join _ _ _).mp hz with hz | rfl
        · exact hz
        · exact absurd hsz hs
      exact hv.sole q room hq hp x (hin x hx hsx) y (hin y hy hsy) hsx hsy
  · simpa using hv.length

-- One move keeps the account, with the caller added when it has just found the device not
-- playing.
theorem Traced.step (hv : Traced (c ++ d) size starters m) (h : JoinMove c d m s env pc after)
    (hpc : m.call s = some pc) :
    ¬(pc = .check ∧ AdapterServer.checkStatus m.server c d = some 102) ∧
        Traced (c ++ d) size starters after ∨
      (pc = .check ∧ AdapterServer.checkStatus m.server c d = some 102) ∧
        Traced (c ++ d) size (fun x => starters x ∨ x = s) after := by
  have hserver : ∀ server, Traced (c ++ d) size starters { m with server } :=
    fun _ => hv.congr rfl rfl fun _ => rfl
  have hconnections : ∀ connections, Traced (c ++ d) size starters { m with connections } :=
    fun _ => hv.congr rfl rfl fun _ => rfl
  by_cases hcheck : pc = .check ∧ AdapterServer.checkStatus m.server c d = some 102
  · refine .inr ⟨hcheck, ?_⟩
    obtain ⟨rfl, h102⟩ := hcheck
    cases h with
    | checked ret hs =>
        rw [h102] at hs
        cases hs
        exact hv.check hpc
  refine .inl ⟨hcheck, ?_⟩
  cases h with
  | checked ret hs =>
      have h102 : ret ≠ 102 := by
        rintro rfl
        exact hcheck ⟨rfl, hs⟩
      have hnot := hv.not_starter hpc (fun h => h)
      exact hv.goto hpc (fun h => absurd h hnot) (by simp [h102]) (by simp) (by simp) (by simp)
  | offline ret hret =>
      exact hv.delete.settle (by simpa using hpc) (by simp) trivial
  | deleted =>
      have hs := hv.starting s (.inl hpc)
      exact hv.delete.goto (by simpa using hpc) (fun _ => trivial) (fun _ => hs) (by simp) (by simp)
        (by simp)
  | found p hr =>
      have hs := hv.not_starter hpc (fun h : (200 : Int) = 102 => absurd h (by decide))
      exact hv.goto hpc (fun h => absurd h hs) (by simp) (by simp) (by simp) (by simp)
  | unexpected ret h102 hr => exact hv.settle hpc (by simp [h102]) trivial
  | failed hret => exact (hserver _).settle hpc (by simp) trivial
  | started hret => exact (hserver _).settle hpc (by simp) trivial
  | created token =>
      refine (hv.append (s := s) (by simp [LiveRoom.join]) (by simp [hpc])).goto hpc
        (fun _ => trivial) (by simp) (by simp) ?_ (by simp)
      rintro p resp ⟨⟩
      exact hv.length
  | stored p resp => exact (hv.insert (hv.store s p resp hpc)).settle hpc (by simp) trivial
  | joined p room hp =>
      have hs := hv.not_starter hpc (fun h => h)
      exact (hv.join hp hs (by simp [hpc])).goto hpc (fun h => absurd h hs) (by simp) (by simp)
        (by simp) (by simp)
  | read p count room hp => exact hv.settle hpc (by simp) trivial
  | replied resp connections => exact (hconnections _).settle hpc (by simp) trivial
  | accepted resp connections => exact (hconnections _).settle hpc (by simp) trivial

-- In any interleaving, two calls that have found the device not playing either are one
-- call or have met the guard.
theorem traced_of_run {start m : Joins} {history : List ((Int × RequestEnv) × List Output)}
    (hready : start.Ready (c ++ d)) (run : Run (joinStep c d) free start history m) :
    ∃ starters, Traced (c ++ d) start.heap.length starters m ∧
      ((∀ x y, starters x → starters y → x = y) →
        Run (joinStep c d) (oneStarter c d) start history m) := by
  induction run with
  | init =>
      refine ⟨fun _ => False, ⟨by simp, ?_, by simp, ?_, ?_, ?_, Nat.le_refl _⟩, fun _ => .init⟩
      · rintro s (hs | hs) <;> cases hready.idle s _ hs
      · intro s p resp hs
        cases hready.idle s _ hs
      · intro p room hp hr
        rw [List.getElem?_eq_none hp] at hr
        cases hr
      · intro p room hp hr
        rw [List.getElem?_eq_none hp] at hr
        cases hr
  | @next history before after event out run _ hs ih =>
      obtain ⟨s, env⟩ := event
      obtain ⟨starters, hv, hrun⟩ := ih
      obtain ⟨pc, hpc, hmove⟩ := joinStep_move hs
      rcases hv.step hmove hpc with ⟨hnot, hv'⟩ | ⟨⟨hcheck, -⟩, hv'⟩
      · refine ⟨starters, hv', fun hone => (hrun hone).next ?_ hs⟩
        intro hc h102
        rw [hpc] at hc
        exact absurd ⟨Option.some.inj hc, h102⟩ hnot
      · refine ⟨_, hv', fun hone => ?_⟩
        have hone' : ∀ x y, starters x → starters y → x = y :=
          fun x y hx hy => hone x y (.inl hx) (.inl hy)
        refine (hrun hone').next (fun _ _ x hx => ?_) hs
        -- the caller is not about to start the device, so it is another call
        have hxs : x = s := hone x s (.inl (hv.starting x hx)) (.inr rfl)
        rw [hcheck] at hpc
        simp [Joins.starting, hxs, hpc] at hx

theorem phase_of_run {start m : Joins} {history : List ((Int × RequestEnv) × List Output)}
    (hready : start.Ready (c ++ d)) (run : Run (joinStep c d) (oneStarter c d) start history m) :
    Phase c d m := by
  refine run.invariant (fun _ m => Phase c d m) (.ready hready) ?_
  rintro history before ⟨s, env⟩ after out hv hguard hs
  obtain ⟨pc, hpc, hmove⟩ := joinStep_move hs
  exact hv.step hguard hmove hpc

-- Joins by any number of sockets for one camera, from any state and in any interleaving,
-- that have all ended with 101 or 102: the stored room has all of them among its users if
-- and only if no call has checked the status of the device while it was not playing and
-- another call was about to start it.
theorem joins_counted_iff {start m : Joins} {history : List ((Int × RequestEnv) × List Output)}
    (hready : start.Ready (c ++ d)) (run : Run (joinStep c d) free start history m)
    (hcalls : ∃ s pc, m.call s = some pc)
    (hdone : ∀ s pc, m.call s = some pc → pc = .done 101 ∨ pc = .done 102) :
    (∃ (p : Nat) (room : LiveRoom), m.rooms[c ++ d]? = some p ∧ m.heap[p]? = some (some room) ∧
      ∀ s pc, m.call s = some pc → s ∈ room.users) ↔
    Run (joinStep c d) (oneStarter c d) start history m := by
  constructor
  · rintro ⟨p, room, hr, hp, husers⟩
    obtain ⟨starters, hv, hrun⟩ := traced_of_run hready run
    refine hrun fun x y hx hy => ?_
    obtain ⟨pcx, hcx, -⟩ := hv.pcs x hx
    obtain ⟨pcy, hcy, -⟩ := hv.pcs y hy
    have hfresh : start.heap.length ≤ p := by
      refine hv.fresh x hx ?_ p hr
      rw [hcx]
      rcases hdone x pcx hcx with rfl | rfl <;> simp
    exact hv.sole p room hfresh hp x (husers x pcx hcx) y (husers y pcy hcy) hx hy
  · intro hguarded
    obtain ⟨s, pc, hs⟩ := hcalls
    have hpc := hdone s pc hs
    cases phase_of_run hready hguarded with
    | ready hv =>
        cases hv.idle s pc hs
        rcases hpc with hpc | hpc <;> cases hpc
    | doomed x failing hx hd =>
        rcases hdone x failing hx with rfl | rfl <;> simp [Pc.doomed] at hd
    | starting hst hpcs hone =>
        rcases hpc with rfl | rfl <;> rcases hpcs s _ hs with hp | hp | ⟨hp, -⟩ <;> cases hp
    | started hst hr hpcs hone hstore =>
        have hnot : pc ≠ .check ∧ pc ≠ .lookup 200 := by rcases hpc with rfl | rfl <;> simp
        rcases (hpcs s pc hs).resolve_left hnot.1 |>.resolve_left hnot.2 with ⟨token, hc⟩ | ⟨p, resp, hc⟩
        · rw [hs] at hc
          cases hc
          rcases hpc with hpc | hpc <;> cases hpc
        · rw [hs] at hc
          cases hc
          rcases hpc with hpc | hpc <;> cases hpc
    | playing hst p room hr hp hpcs =>
        refine ⟨p, room, hr, hp, fun x pcx hx => ?_⟩
        have hin := hpcs x pcx hx
        rcases hdone x pcx hx with rfl | rfl <;> exact hin

-- Two sockets that are about to ask for a camera that is online.
def twoCallers : Joins where
  connections := ((∅ : Connections).insert 1 (some { socketid := 1 })).insert 2 (some { socketid := 2 })
  server := ⟨[⟨7, "A", 0, (∅ : DevList).insert "d" { pid := "d" }, []⟩]⟩
  rooms := ∅
  heap := []
  calls := ((∅ : Std.ExtTreeMap Int Pc).insert 1 .check).insert 2 .check

-- A test of every call is a test of a list.
theorem call_of_toList (test : Int × Pc → Bool) (h : m.calls.toList.all test = true)
    (hs : m.call s = some pc) : test (s, pc) = true :=
  List.all_eq_true.mp h (s, pc) (Std.ExtTreeMap.mem_toList_iff_getElem?_eq_some.mpr hs)

theorem twoCallers_ready : twoCallers.Ready ("A" ++ "d") := by
  refine ⟨?_, by simp [twoCallers]⟩
  intro s pc hs
  have hcheck := call_of_toList (fun call => call.2 = .check) (by decide +kernel) hs
  simpa using hcheck

-- The calls take their steps in the order of the sockets in the list.
def schedule (sockets : List Int) : List (Int × RequestEnv) :=
  sockets.map fun s => (s, requestEnv "t" 1)

def answered (m : Joins) : Bool :=
  m.calls.toList.all fun call => call.2 = .done 101 ∨ call.2 = .done 102

theorem done_of_answered (h : answered m = true) (s : Int) (pc : Pc) (hs : m.call s = some pc) :
    pc = .done 101 ∨ pc = .done 102 := by
  simpa using call_of_toList _ h hs

-- The second call begins when the first one has ended.
theorem joins_counted_one_after_another :
    ∃ history m, Run (joinStep "A" "d") free twoCallers history m ∧
      m.call 1 = some (.done 102) ∧ m.call 2 = some (.done 102) ∧
      ((∃ (p : Nat) (room : LiveRoom), m.rooms["A" ++ "d"]? = some p ∧
          m.heap[p]? = some (some room) ∧ ∀ s pc, m.call s = some pc → s ∈ room.users) ∧
        Run (joinStep "A" "d") (oneStarter "A" "d") twoCallers history m) := by
  obtain ⟨history, m, run, ht⟩ := exists_run_of_ends (joinStep "A" "d") free twoCallers
    (schedule [1, 1, 1, 1, 1, 1, 2, 2, 2, 2, 2])
    (fun _ m => answered m && m.call 1 = some (.done 102) && m.call 2 = some (.done 102) &&
      m.rooms["A" ++ "d"]? = some 0 && m.heap[0]?.any fun room => room.any fun room =>
        m.calls.toList.all fun call => call.1 ∈ room.users)
    (guarded_free ..) (by decide +kernel)
  simp only [Bool.and_eq_true, decide_eq_true_eq] at ht
  obtain ⟨⟨⟨⟨hans, h1⟩, h2⟩, hr⟩, hp⟩ := ht
  obtain ⟨cell, hcell, hroom⟩ := (Option.any_eq_true _ _).mp hp
  obtain ⟨room, rfl, husers⟩ := (Option.any_eq_true _ _).mp hroom
  have hcounted : ∃ (p : Nat) (room : LiveRoom), m.rooms["A" ++ "d"]? = some p ∧
      m.heap[p]? = some (some room) ∧ ∀ s pc, m.call s = some pc → s ∈ room.users :=
    ⟨0, room, hr, hcell, fun s pc hs => by simpa using call_of_toList _ husers hs⟩
  exact ⟨history, m, run, h1, h2, hcounted, (joins_counted_iff twoCallers_ready run ⟨1, _, h1⟩
    (done_of_answered hans)).mp hcounted⟩

-- Both calls check the device before either has started it: the room that is stored last
-- has one viewer.
theorem joins_not_counted :
    ¬ ∀ (c d : String) (start m : Joins) (history : List ((Int × RequestEnv) × List Output)),
      start.Ready (c ++ d) → Run (joinStep c d) free start history m →
      (∃ s pc, m.call s = some pc) →
      (∀ s pc, m.call s = some pc → pc = .done 101 ∨ pc = .done 102) →
      ∃ (p : Nat) (room : LiveRoom), m.rooms[c ++ d]? = some p ∧ m.heap[p]? = some (some room) ∧
        ∀ s pc, m.call s = some pc → s ∈ room.users := by
  intro hall
  obtain ⟨history, m, run, ht⟩ := exists_run_of_ends (joinStep "A" "d") free twoCallers
    (schedule [1, 2, 1, 2, 1, 2, 1, 1, 2, 2, 1, 2])
    (fun _ m => answered m && m.call 1 = some (.done 102) && m.rooms["A" ++ "d"]? = some 1 &&
      m.heap[1]?.any fun room => room.any (·.users = [2]))
    (guarded_free ..) (by decide +kernel)
  simp only [Bool.and_eq_true, decide_eq_true_eq] at ht
  obtain ⟨⟨⟨hans, h1⟩, hr⟩, hp⟩ := ht
  obtain ⟨p, room, hr', hp', husers⟩ := hall "A" "d" twoCallers m history twoCallers_ready run
    ⟨1, _, h1⟩ (done_of_answered hans)
  have hp1 : p = 1 := Option.some.inj (hr'.symm.trans hr)
  subst hp1
  simp only [hp', Option.any_some, decide_eq_true_eq] at hp
  have hm := husers 1 _ h1
  simp [hp] at hm

end VideoAdapter.Wss

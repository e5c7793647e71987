import Mathlib.Data.List.Basic
import Mathlib.Logic.Relation

namespace VideoAdapter.Lib

section Waiting

variable {Thread Lock : Type*}

-- A thread waits for another one that holds the mutex it wants next.
def WaitsFor (held : Thread → List Lock) (wants : Thread → Option Lock) (threads : List Thread)
    (i j : Nat) : Prop :=
  ∃ thread other l, threads[i]? = some thread ∧ threads[j]? = some other ∧ wants thread = some l ∧
    l ∈ held other

-- No thread waits, through others or at once, for itself.
def DeadlockFree (held : Thread → List Lock) (wants : Thread → Option Lock)
    (threads : List Thread) : Prop :=
  ∀ i, ¬ Relation.TransGen (WaitsFor held wants threads) i i

variable {held : Thread → List Lock} {wants : Thread → Option Lock} {threads : List Thread}

-- Mutexes that are only taken upwards in some order are not waited for in a circle.
theorem deadlockFree_of_rank (rank : Lock → Nat)
    (h : ∀ thread ∈ threads, ∀ l, wants thread = some l → ∀ m ∈ held thread, rank m < rank l) :
    DeadlockFree held wants threads := by
  -- what the last thread of a chain holds is not below what the first one wants
  have hup : ∀ i j, Relation.TransGen (WaitsFor held wants threads) i j →
      ∃ thread other l m, threads[i]? = some thread ∧ threads[j]? = some other ∧
        wants thread = some l ∧ m ∈ held other ∧ rank l ≤ rank m := by
    intro i j hpath
    induction hpath with
    | single hwait =>
        obtain ⟨thread, other, l, hi, hj, hwants, hheld⟩ := hwait
        exact ⟨thread, other, l, l, hi, hj, hwants, hheld, Nat.le_refl _⟩
    | tail _ hwait ih =>
        obtain ⟨thread, other, l, m, hi, hj, hwants, hheld, hle⟩ := ih
        obtain ⟨middle, last, n, hj', hk, hwants', hn⟩ := hwait
        obtain rfl := Option.some.inj (hj.symm.trans hj')
        have hlt := h other (List.mem_of_getElem? hj) n hwants' m hheld
        exact ⟨thread, last, l, n, hi, hk, hwants, hn, by omega⟩
  intro i hcycle
  obtain ⟨thread, other, l, m, hi, hi', hwants, hheld, hle⟩ := hup i i hcycle
  obtain rfl := Option.some.inj (hi.symm.trans hi')
  have hlt := h thread (List.mem_of_getElem? hi) l hwants m hheld
  omega

-- Two threads that want what the other one holds.
theorem not_deadlockFree {i j : Nat} (hij : WaitsFor held wants threads i j)
    (hji : WaitsFor held wants threads j i) : ¬ DeadlockFree held wants threads :=
  fun hfree => hfree i ((Relation.TransGen.single hij).tail hji)

end Waiting

-- A thread stands before the mutex of a point of its program, or inside it.
structure Standing (Point : Type*) where
  point : Point
  entered : Bool := false
deriving DecidableEq, Repr

-- A program by its points: the mutexes held all around a point, the mutex that is taken there and
-- is released with the step that leaves it, unless the next point has it around, and that step.
structure LockProgram (Data Point Lock Env : Type*) where
  outer : Point → List Lock
  takes : Point → Option Lock
  exec : Data → Point → Env → Option (Data × Point)

namespace LockProgram

variable {Data Point Lock Env : Type*} (program : LockProgram Data Point Lock Env)

def held (thread : Standing Point) : List Lock :=
  if thread.entered then (program.takes thread.point).toList ++ program.outer thread.point
  else program.outer thread.point

def wants (thread : Standing Point) : Option Lock :=
  if thread.entered then none else program.takes thread.point

-- No step gets hold of a mutex that the thread does not have.
def Releases : Prop :=
  ∀ {data after : Data} {point next : Point} {env : Env},
    program.exec data point env = some (after, next) →
      program.outer next ⊆ (program.takes point).toList ++ program.outer point

-- A mutex has at most one holder.
def Exclusive (threads : List (Standing Point)) : Prop :=
  ∀ (i j : Nat) (thread other : Standing Point) (l : Lock), threads[i]? = some thread →
    threads[j]? = some other → l ∈ program.held thread → l ∈ program.held other → i = j

-- No point takes a mutex that is held around it.
def Nested : Prop := ∀ point, ∀ l ∈ program.takes point, l ∉ program.outer point

-- A thread passes points one after the other, and the mutexes it takes there are free.
def Passes (free : Lock → Prop) : Data × Point → Data × Point → Prop :=
  Relation.ReflTransGen fun before after =>
    (∀ l ∈ program.takes before.2, free l) ∧ ∃ env, program.exec before.1 before.2 env = some after

-- The threads but one hold nothing that is free.
def OthersAside (free : Lock → Prop) (threads : List (Standing Point)) (i : Nat) : Prop :=
  ∀ j other, threads[j]? = some other → j ≠ i → ∀ l ∈ program.held other, ¬ free l

variable {program}

theorem held_of_wants {thread : Standing Point} (h : program.wants thread = none) :
    program.held thread = (program.takes thread.point).toList ++ program.outer thread.point := by
  unfold held wants at *
  split at h
  next hentered => rw [if_pos hentered]
  next hentered => rw [if_neg hentered, h, Option.toList_none, List.nil_append]

variable {threads : List (Standing Point)} {i : Nat}

theorem Passes.single {data after : Data} {point next : Point} {env : Env} {free : Lock → Prop}
    (htakes : ∀ l ∈ program.takes point, free l)
    (hexec : program.exec data point env = some (after, next)) :
    program.Passes free (data, point) (after, next) :=
  Relation.ReflTransGen.single ⟨htakes, env, hexec⟩

theorem OthersAside.set {free : Lock → Prop} (h : program.OthersAside free threads i)
    (thread : Standing Point) : program.OthersAside free (threads.set i thread) i := by
  intro j other hj hne
  rw [List.getElem?_set_ne hne.symm] at hj
  exact h j other hj hne

namespace Exclusive

-- A thread that comes to hold only mutexes it had, or that nobody had.
theorem set (h : program.Exclusive threads) {thread next : Standing Point}
    (hthread : threads[i]? = some thread)
    (hheld : ∀ l ∈ program.held next,
      l ∈ program.held thread ∨ ∀ other ∈ threads, l ∉ program.held other) :
    program.Exclusive (threads.set i next) := by
  have hkeep : ∀ (k : Nat) (other : Standing Point) (l : Lock), threads[k]? = some other →
      l ∈ program.held other → l ∈ program.held next → k = i := by
    intro k other l hk hother hnext
    rcases hheld l hnext with hhad | hfree
    · exact h k i other thread l hk hthread hother hhad
    · exact absurd hother (hfree other (List.mem_of_getElem? hk))
  intro j k first second l hj hk hfirst hsecond
  rw [List.getElem?_set] at hj hk
  split at hj
  next hij =>
    split at hk
    next hik => exact hij.symm.trans hik
    next hik =>
      split at hj
      · cases hj
        exact (hij.symm.trans (hkeep k second l hk hsecond hfirst).symm)
      · cases hj
  next hij =>
    split at hk
    next hik =>
      split at hk
      · cases hk
        exact (hkeep j first l hj hfirst hsecond).trans hik
      · cases hk
    next hik => exact h j k first second l hj hk hfirst hsecond

-- A new thread holds nothing.
theorem append (h : program.Exclusive threads) {point : Point} (hnew : program.outer point = []) :
    program.Exclusive (threads ++ [⟨point, false⟩]) := by
  have hnone : ∀ (k : Nat) (thread : Standing Point) (l : Lock),
      (threads ++ [⟨point, false⟩])[k]? = some thread → l ∈ program.held thread →
        threads[k]? = some thread := by
    intro k thread l hk hl
    rw [List.getElem?_append] at hk
    split at hk
    · exact hk
    · have hmem := List.mem_singleton.mp (List.mem_of_getElem? hk)
      rw [hmem, held, if_neg Bool.false_ne_true, hnew] at hl
      cases hl
  intro j k first second l hj hk hfirst hsecond
  exact h j k first second l (hnone j first l hj hfirst) (hnone k second l hk hsecond) hfirst hsecond

end Exclusive

variable [DecidableEq Lock]

-- A mutex is free when nobody holds it, the thread itself included.
def step (program : LockProgram Data Point Lock Env) (data : Data)
    (threads : List (Standing Point)) (i : Nat) (env : Env) :
    Option (Data × List (Standing Point)) :=
  match threads[i]? with
  | none => none
  | some thread =>
      match program.wants thread with
      | some l =>
          if threads.any fun other => decide (l ∈ program.held other) then none
          else some (data, threads.set i ⟨thread.point, true⟩)
      | none => (program.exec data thread.point env).map fun result =>
          (result.1, threads.set i ⟨result.2, false⟩)

variable {data after : Data} {last : List (Standing Point)} {env : Env}

-- A step takes the mutex of its point, or leaves the point.
theorem step_cases (h : program.step data threads i env = some (after, last)) :
    ∃ thread, threads[i]? = some thread ∧
      ((∃ l, program.wants thread = some l ∧ (∀ other ∈ threads, l ∉ program.held other) ∧
          after = data ∧ last = threads.set i ⟨thread.point, true⟩) ∨
        (∃ next, program.wants thread = none ∧
          program.exec data thread.point env = some (after, next) ∧
          last = threads.set i ⟨next, false⟩)) := by
  unfold step at h
  split at h
  · cases h
  next thread hthread =>
    refine ⟨thread, hthread, ?_⟩
    split at h
    next l hwants =>
      split at h
      · cases h
      next hfree =>
        cases h
        refine .inl ⟨l, hwants, fun other hother hmem => hfree ?_, rfl, rfl⟩
        exact List.any_eq_true.mpr ⟨other, hother, decide_eq_true hmem⟩
    next hwants =>
      obtain ⟨⟨mid, next⟩, hexec, heq⟩ := Option.map_eq_some_iff.mp h
      cases heq
      exact .inr ⟨next, hwants, hexec, rfl⟩

theorem Exclusive.step (hreleases : program.Releases) (h : program.Exclusive threads)
    (hs : program.step data threads i env = some (after, last)) : program.Exclusive last := by
  obtain ⟨thread, hthread, hstep⟩ := step_cases hs
  rcases hstep with ⟨l, hwants, hfree, -, rfl⟩ | ⟨next, hwants, hexec, rfl⟩
  · refine h.set hthread fun m hm => ?_
    unfold wants at hwants
    split at hwants
    · cases hwants
    next hentered =>
      simp only [held, if_true, hwants, Option.toList_some, List.singleton_append,
        List.mem_cons] at hm
      rcases hm with rfl | hm
      · exact .inr hfree
      · exact .inl (by rw [held, if_neg hentered]; exact hm)
  · refine h.set hthread fun m hm => .inl ?_
    rw [held_of_wants hwants]
    exact hreleases hexec hm

-- One thread takes steps, and the others none.
def Steps (program : LockProgram Data Point Lock Env) (i : Nat) :
    Data × List (Standing Point) → Data × List (Standing Point) → Prop :=
  Relation.ReflTransGen fun before after => ∃ env, program.step before.1 before.2 i env = some after

section Passing

variable {free : Lock → Prop} {point next : Point}

-- To pass a point, a thread takes its mutex and leaves.
theorem steps_single (hnested : program.Nested) (haside : program.OthersAside free threads i)
    (hthread : threads[i]? = some ⟨point, false⟩) (htakes : ∀ l ∈ program.takes point, free l)
    (hexec : program.exec data point env = some (after, next)) :
    program.Steps i (data, threads) (after, threads.set i ⟨next, false⟩) := by
  have hlt : i < threads.length := (List.getElem?_eq_some_iff.mp hthread).1
  cases hpoint : program.takes point with
  | none =>
      refine .single ⟨env, ?_⟩
      simp [step, hthread, wants, hpoint, hexec]
  | some l =>
      have hfree : (threads.any fun other => decide (l ∈ program.held other)) = false := by
        rw [List.any_eq_false]
        intro other hother hheld
        obtain ⟨j, hj⟩ := List.mem_iff_getElem?.mp hother
        by_cases hji : j = i
        · subst hji
          obtain rfl := Option.some.inj (hthread.symm.trans hj)
          exact hnested point l hpoint (of_decide_eq_true hheld)
        · exact haside j other hj hji l (of_decide_eq_true hheld) (htakes l hpoint)
      have hentered : program.step data threads i env =
          some (data, threads.set i ⟨point, true⟩) := by
        simp [step, hthread, wants, hpoint, hfree]
      have hleft : program.step data (threads.set i ⟨point, true⟩) i env =
          some (after, threads.set i ⟨next, false⟩) := by
        simp [step, hlt, wants, hexec]
      exact (Relation.ReflTransGen.single ⟨env, hentered⟩).tail ⟨env, hleft⟩

-- While the others hold nothing that it takes, a thread can pass its points.
theorem Passes.steps (h : program.Passes free (data, point) (after, next))
    (hnested : program.Nested) (haside : program.OthersAside free threads i)
    (hthread : threads[i]? = some ⟨point, false⟩) :
    program.Steps i (data, threads) (after, threads.set i ⟨next, false⟩) := by
  have hlt : i < threads.length := (List.getElem?_eq_some_iff.mp hthread).1
  suffices hall : ∀ final, program.Passes free (data, point) final →
      program.Steps i (data, threads) (final.1, threads.set i ⟨final.2, false⟩) from hall _ h
  intro final hpasses
  induction hpasses with
  | refl =>
      rw [← (List.getElem?_eq_some_iff.mp hthread).2, List.set_getElem_self]
      exact .refl
  | @tail mid last _ hpass ih =>
      obtain ⟨htakes, env, hexec⟩ := hpass
      have hmid : (threads.set i ⟨mid.2, false⟩)[i]? = some ⟨mid.2, false⟩ := by simp [hlt]
      have hlast := steps_single hnested (haside.set _) hmid htakes hexec
      rw [List.set_set] at hlast
      exact ih.trans hlast

end Passing

end LockProgram

end VideoAdapter.Lib

import Mathlib.Data.List.Basic

namespace VideoAdapter.Lib

section Run

variable {State Event Output : Type*}

-- A run of a partial step function, with its history newest step first. A step
-- without a result ends the process, so no run goes on after it. The guard may
-- read the history: a condition on a step can refer to all earlier steps.
inductive Run (step : State → Event → Option (State × Output))
    (guard : List (Event × Output) → State → Event → Prop) (start : State) :
    List (Event × Output) → State → Prop
  | init : Run step guard start [] start
  | next {history : List (Event × Output)} {before after : State} {event : Event}
      {output : Output} : Run step guard start history before → guard history before event →
      step before event = some (after, output) →
      Run step guard start ((event, output) :: history) after

-- The guard that every step meets.
def free (_ : List (Event × Output)) (_ : State) (_ : Event) : Prop := True

variable {step : State → Event → Option (State × Output)}
  {guard : List (Event × Output) → State → Event → Prop} {start : State}

-- What holds at the start and is kept by every guarded step holds along the run.
theorem Run.invariant (inv : List (Event × Output) → State → Prop) (hstart : inv [] start)
    (hstep : ∀ history before event after output, inv history before →
      guard history before event → step before event = some (after, output) →
      inv ((event, output) :: history) after)
    {history : List (Event × Output)} {final : State}
    (run : Run step guard start history final) : inv history final := by
  induction run with
  | init => exact hstart
  | next _ hguard hs ih => exact hstep _ _ _ _ _ ih hguard hs

-- What a guarded run does, it could do without the guard.
theorem Run.unguarded {history : List (Event × Output)} {final : State}
    (run : Run step guard start history final) : Run step free start history final := by
  induction run with
  | init => exact .init
  | next _ _ hs ih => exact ih.next trivial hs

-- One run after another.
theorem Run.append {guard' : List (Event × Output) → State → Event → Prop}
    {history later : List (Event × Output)} {middle final : State}
    (run : Run step guard start history middle) (rest : Run step guard' middle later final) :
    Run step free start (later ++ history) final := by
  induction rest with
  | init => exact run.unguarded
  | next _ _ hs ih => exact ih.next trivial hs

-- A run whose steps all make a measure smaller is no longer than the measure.
theorem Run.length_le (measure : State → Nat) (inv : State → Prop) (hstart : inv start)
    (hstep : ∀ history before event after output, inv before → guard history before event →
      step before event = some (after, output) → inv after ∧ measure after < measure before)
    {history : List (Event × Output)} {final : State} (run : Run step guard start history final) :
    history.length + measure final ≤ measure start := by
  refine (run.invariant (fun history state =>
    inv state ∧ history.length + measure state ≤ measure start) ⟨hstart, by simp⟩ ?_).2
  rintro history before event after output ⟨hinv, hle⟩ hguard hs
  obtain ⟨hafter, hlt⟩ := hstep _ _ _ _ _ hinv hguard hs
  refine ⟨hafter, ?_⟩
  rw [List.length_cons]
  omega

-- A history determines the state it leads to.
theorem Run.unique {guard' : List (Event × Output) → State → Event → Prop}
    {history : List (Event × Output)} {final final' : State}
    (run : Run step guard start history final) (run' : Run step guard' start history final') :
    final = final' := by
  induction run generalizing final' with
  | init =>
      cases run'
      rfl
  | next _ _ hs ih =>
      cases run' with
      | next run' _ hs' =>
          obtain rfl := ih run'
          rw [hs] at hs'
          cases hs'
          rfl

-- Every entry of the history was a step from the state that the entries before it led to.
theorem Run.step_of_suffix {history earlier : List (Event × Output)} {final : State} {event : Event}
    {output : Output} (run : Run step guard start history final)
    (h : (event, output) :: earlier <:+ history) :
    ∃ before after, Run step guard start earlier before ∧ guard earlier before event ∧
      step before event = some (after, output) := by
  induction run with
  | init => cases List.suffix_nil.mp h
  | next hbefore hguard hs ih =>
      rcases List.suffix_cons_iff.mp h with heq | hsuffix
      · cases heq
        exact ⟨_, _, hbefore, hguard, hs⟩
      · exact ih hsuffix

-- Where the guard tells exactly the steps that keep the invariant, the runs whose steps all
-- meet it are the runs that keep the invariant in every state they pass.
theorem Run.guarded_iff (inv : List (Event × Output) → State → Prop) (hstart : inv [] start)
    (hexact : ∀ history before event after output, inv history before →
      step before event = some (after, output) →
      (guard history before event ↔ inv ((event, output) :: history) after))
    {history : List (Event × Output)} {final : State} (run : Run step free start history final) :
    Run step guard start history final ↔
      ∀ earlier state, earlier <:+ history → Run step free start earlier state →
        inv earlier state := by
  constructor
  · intro guarded
    induction guarded with
    | init =>
        intro earlier state hsuffix hrun
        obtain rfl := List.suffix_nil.mp hsuffix
        cases hrun
        exact hstart
    | @next history before after event output hbefore hguard hs ih =>
        have hall := ih hbefore.unguarded
        intro earlier state hsuffix hrun
        rcases List.suffix_cons_iff.mp hsuffix with rfl | hsuffix
        · obtain rfl := hrun.unique run
          have hinv := hall history before (List.suffix_refl _) hbefore.unguarded
          exact (hexact history before event _ output hinv hs).mp hguard
        · exact hall earlier state hsuffix hrun
  · induction run with
    | init => exact fun _ => .init
    | @next history before after event output hbefore hfree hs ih =>
        intro hall
        have hinv := hall history before (List.suffix_cons _ _) hbefore
        have hlast := hall _ after (List.suffix_refl _) (hbefore.next hfree hs)
        refine (ih fun earlier state hsuffix => hall earlier state ?_).next ?_ hs
        · exact hsuffix.trans (List.suffix_cons _ _)
        · exact (hexact history before event after output hinv hs).mpr hlast

-- The same for an invariant that needs another one, which every step keeps.
theorem Run.guarded_iff_under (side inv : List (Event × Output) → State → Prop)
    (hside : side [] start) (hkeeps : ∀ history before event after output, side history before →
      step before event = some (after, output) → side ((event, output) :: history) after)
    (hstart : inv [] start)
    (hexact : ∀ history before event after output, side history before → inv history before →
      step before event = some (after, output) →
      (guard history before event ↔ inv ((event, output) :: history) after))
    {history : List (Event × Output)} {final : State} (run : Run step free start history final) :
    Run step guard start history final ↔
      ∀ earlier state, earlier <:+ history → Run step free start earlier state →
        inv earlier state := by
  have hall : ∀ earlier state, Run step free start earlier state → side earlier state :=
    fun _ _ hrun => hrun.invariant side hside fun _ _ _ _ _ h _ hs => hkeeps _ _ _ _ _ h hs
  rw [run.guarded_iff (fun history state => side history state ∧ inv history state)
    ⟨hside, hstart⟩]
  · constructor
    · exact fun h earlier state hsuffix hrun => (h earlier state hsuffix hrun).2
    · exact fun h earlier state hsuffix hrun =>
        ⟨hall earlier state hrun, h earlier state hsuffix hrun⟩
  · rintro history before event after output ⟨hs, hinv⟩ hstep
    rw [hexact _ _ _ _ _ hs hinv hstep]
    exact (and_iff_right (hkeeps _ _ _ _ _ hs hstep)).symm

-- Where the guard tells exactly the good steps, and a good step keeps the invariant that this
-- needs, the runs whose steps all meet the guard are the runs of good steps.
theorem Run.guarded_iff_good (inv : List (Event × Output) → State → Prop)
    (good : List (Event × Output) → State → Event → Output → State → Prop) (hstart : inv [] start)
    (hexact : ∀ history before event after output, inv history before →
      step before event = some (after, output) →
      (guard history before event ↔ good history before event output after))
    (hkeeps : ∀ history before event after output, inv history before →
      step before event = some (after, output) → good history before event output after →
      inv ((event, output) :: history) after)
    {history : List (Event × Output)} {final : State} (run : Run step free start history final) :
    Run step guard start history final ↔
      ∀ event output earlier before after, (event, output) :: earlier <:+ history →
        Run step free start earlier before → step before event = some (after, output) →
        good earlier before event output after := by
  have hinv : ∀ history state, Run step guard start history state → inv history state := by
    intro history state guarded
    refine guarded.invariant inv hstart fun history before event after output h hguard hs => ?_
    exact hkeeps _ _ _ _ _ h hs ((hexact _ _ _ _ _ h hs).mp hguard)
  constructor
  · intro guarded event output earlier before after hsuffix hrun hs
    obtain ⟨before', _, hbefore, hguard, _⟩ := guarded.step_of_suffix hsuffix
    obtain rfl := hbefore.unique hrun
    exact (hexact _ _ _ _ _ (hinv _ _ hbefore) hs).mp hguard
  · induction run with
    | init => exact fun _ => .init
    | @next history before after event output hbefore _ hs ih =>
        intro hall
        have hguarded := ih fun event output earlier before after hsuffix =>
          hall event output earlier before after (hsuffix.trans (List.suffix_cons _ _))
        have hlast := hall event output history before after (List.suffix_refl _) hbefore hs
        exact hguarded.next ((hexact _ _ _ _ _ (hinv _ _ hguarded) hs).mpr hlast) hs

-- Executes the events in order on top of a history.
def exec (step : State → Event → Option (State × Output)) (state : State)
    (history : List (Event × Output)) : List Event → Option (State × List (Event × Output))
  | [] => some (state, history)
  | event :: rest =>
      match step state event with
      | none => none
      | some (after, output) => exec step after ((event, output) :: history) rest

theorem exec_cons {state after : State} {event : Event} {output : Output}
    (hs : step state event = some (after, output)) (history : List (Event × Output))
    (rest : List Event) :
    exec step state history (event :: rest) = exec step after ((event, output) :: history) rest := by
  simp only [exec, hs]

-- Every step of an execution meets the guard.
def Guarded (step : State → Event → Option (State × Output))
    (guard : List (Event × Output) → State → Event → Prop) (state : State)
    (history : List (Event × Output)) : List Event → Prop
  | [] => True
  | event :: rest =>
      guard history state event ∧
        match step state event with
        | none => True
        | some (after, output) => Guarded step guard after ((event, output) :: history) rest

-- An execution extends a run.
theorem Run.exec {events : List Event} {history : List (Event × Output)} {state : State}
    (run : Run step guard start history state) (hg : Guarded step guard state history events)
    {final : State} {record : List (Event × Output)}
    (he : Lib.exec step state history events = some (final, record)) :
    Run step guard start record final := by
  induction events generalizing history state with
  | nil =>
      simp only [Lib.exec, Option.some.injEq, Prod.mk.injEq] at he
      obtain ⟨rfl, rfl⟩ := he
      exact run
  | cons event rest ih =>
      cases hs : step state event with
      | none => simp [Lib.exec, hs] at he
      | some pair =>
          obtain ⟨after, output⟩ := pair
          rw [exec_cons hs] at he
          simp only [Guarded, hs] at hg
          exact ih (.next run hg.1 hs) hg.2 he

theorem guarded_free (state : State) (history : List (Event × Output)) (events : List Event) :
    Guarded step free state history events := by
  induction events generalizing state history with
  | nil => trivial
  | cons event rest ih =>
      refine ⟨trivial, ?_⟩
      split
      · trivial
      · exact ih _ _

-- A test of the end of an execution, as a computation.
def ends (step : State → Event → Option (State × Output)) (start : State) (events : List Event)
    (test : List (Event × Output) → State → Bool) : Bool :=
  match exec step start [] events with
  | none => false
  | some (final, record) => test record final

theorem exists_run_of_ends (step : State → Event → Option (State × Output))
    (guard : List (Event × Output) → State → Event → Prop) (start : State) (events : List Event)
    (test : List (Event × Output) → State → Bool)
    (hg : Guarded step guard start [] events) (h : ends step start events test = true) :
    ∃ history final, Run step guard start history final ∧ test history final = true := by
  unfold ends at h
  split at h
  · cases h
  · rename_i final record he
    exact ⟨record, final, Run.init.exec hg he, h⟩

-- The same for a test of the last step and what came before it.
def lastStep (test : List (Event × Output) → Event → Output → State → Bool) :
    List (Event × Output) → State → Bool
  | [], _ => false
  | (event, output) :: history, final => test history event output final

theorem exists_last_of_ends (step : State → Event → Option (State × Output))
    (guard : List (Event × Output) → State → Event → Prop) (start : State) (events : List Event)
    (test : List (Event × Output) → Event → Output → State → Bool)
    (hg : Guarded step guard start [] events)
    (h : ends step start events (lastStep test) = true) :
    ∃ history event output final,
      Run step guard start ((event, output) :: history) final ∧
        test history event output final = true := by
  obtain ⟨record, final, run, ht⟩ := exists_run_of_ends step guard start events _ hg h
  cases record with
  | nil => cases ht
  | cons last history => exact ⟨history, last.1, last.2, final, run, ht⟩

theorem Guarded.cons {state : State} {history : List (Event × Output)} {event : Event}
    {rest : List Event} (hguard : guard history state event)
    (hrest : ∀ after output, step state event = some (after, output) →
      Guarded step guard after ((event, output) :: history) rest) :
    Guarded step guard state history (event :: rest) := by
  refine ⟨hguard, ?_⟩
  split
  · trivial
  · rename_i hs
    exact hrest _ _ hs

-- A test that is enough for the guard, at every step of an execution.
def passes (step : State → Event → Option (State × Output))
    (check : List (Event × Output) → State → Event → Bool) (state : State)
    (history : List (Event × Output)) : List Event → Bool
  | [] => true
  | event :: rest =>
      check history state event &&
        match step state event with
        | none => true
        | some (after, output) => passes step check after ((event, output) :: history) rest

theorem guarded_of_passes (check : List (Event × Output) → State → Event → Bool)
    (hcheck : ∀ history state event, check history state event = true → guard history state event)
    {state : State} {history : List (Event × Output)} {events : List Event}
    (h : passes step check state history events = true) :
    Guarded step guard state history events := by
  induction events generalizing state history with
  | nil => trivial
  | cons event rest ih =>
      simp only [passes, Bool.and_eq_true] at h
      refine .cons (hcheck _ _ _ h.1) fun after output hs => ?_
      have hrest := h.2
      simp only [hs] at hrest
      exact ih hrest

end Run

end VideoAdapter.Lib

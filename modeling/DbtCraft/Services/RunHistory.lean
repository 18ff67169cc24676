/-
# Exactly one terminal status

A run's row is to end in one terminal status. The normal path writes one, and so
do the handlers, but they name single exception types and are themselves
interruptible: a `GeneratorExit`, an exception other than `TimeoutError` in an
awaited `run_command`, a cancellation outside the `try` or inside a handler that
is not shielded leave the row `running`; a cancellation after the commit but
before `persisted` is set, and a runner that starts elsewhere, have it written
twice. Along every run without these steps the row of an ended execution is
terminal, and a terminal row never changes.
-/

import DbtCraft.Services.RunLifecycle

namespace DbtCraft.Services.RunLifecycle

open DbtCraft.Math DbtCraft.Services.RunOutcome

variable {mode : Mode} {state next : State} {event : Event} {events : List Event}

/-- An exception at this point ends in a handler that writes the row. -/
def RaiseCaught (mode : Mode) (phase : Phase) : Prop :=
  match phase, mode with
  | .prelude, _ | .releasing, _ => mode = .background
  | .working, _ => mode ≠ .sync
  | .updating source _, .sse => source = .body
  | .updating source _, .sync => source ≠ .body
  | _, _ => True

/-- A cancellation at this point leaves the row to a handler or to a write that
is applied, and to no second write. -/
def CancelHandled (mode : Mode) (phase : Phase) (applied : Bool) : Prop :=
  match phase with
  | .launched | .prelude | .releasing => False
  | .updating source _ =>
    if mode = .sse ∧ source = .cancelHandler then True
    else if mode = .sse ∧ source = .body then applied = false
    else applied = true
  | _ => True

/-- No step leaves the row to nobody or to two writers. -/
def Orderly (mode : Mode) (state : State) (event : Event) : Prop :=
  match event with
  | .cancelInsert applied => applied = false
  | .raise => RaiseCaught mode state.phase
  | .cancel applied => CancelHandled mode state.phase applied
  | .close => state.phase ≠ .opening ∧ state.phase ≠ .yielding
  | .reconcile => state.phase = .ended ∧ state.pending = false
  | _ => True

instance (mode : Mode) (phase : Phase) : Decidable (RaiseCaught mode phase) := by
  cases phase <;> cases mode <;> unfold RaiseCaught <;> infer_instance

instance (mode : Mode) (phase : Phase) (applied : Bool) :
    Decidable (CancelHandled mode phase applied) := by
  cases phase <;> unfold CancelHandled <;> infer_instance

instance (mode : Mode) (state : State) (event : Event) :
    Decidable (Orderly mode state event) := by
  cases event <;> unfold Orderly <;> infer_instance

/-- What the history promises in a state of the runs that take `allowed` steps:
an ended execution does not leave its row `running`, and no next step changes a
terminal row. -/
structure LifecycleSafe (mode : Mode) (allowed : State → Event → Prop) (state : State) :
    Prop where
  finished : state.phase = .ended → state.pending = false → state.row ≠ some .running
  stable : ∀ event next, allowed state event → step mode state event = some next →
    ∀ status, Terminal status → state.row = some status → next.row = some status

/-! ## The invariant -/

/-- The row that each phase of an orderly run finds. -/
def Phase.Expects (phase : Phase) (row : Option RunStatus) : Prop :=
  match phase with
  | .inserting => row = none
  | .launched | .prelude | .opening | .working | .yielding | .releasing => row = some .running
  | .updating _ status => row = some .running ∧ Terminal status
  | .settling _ | .closing => ∃ status, Terminal status ∧ row = some status
  | .ended => True

/-- The phase expects a row, and only a write that goes on after the end leaves
the row `running`. -/
structure Tracked (state : State) : Prop where
  row : state.phase.Expects state.row
  persisted : state.persisted = true → ∃ status, Terminal status ∧ state.row = some status
  finished : state.phase = .ended → state.pending = false → state.row ≠ some .running
  pending : state.pending = true → state.phase = .ended ∧ state.row = some .running

theorem tracked_init : Tracked (machine mode).init where
  row := rfl
  persisted hpersisted := by cases hpersisted
  finished hended := by cases hended
  pending hpending := by cases hpending

theorem ne_running_of_terminal {status : RunStatus} (hterminal : Terminal status) :
    status ≠ .running := by
  rcases hterminal with rfl | rfl | rfl <;> simp

theorem terminal_statusOf (returncode : ℤ) : Terminal (statusOf returncode) := by
  unfold statusOf
  split
  · exact Or.inl rfl
  · exact Or.inr (Or.inl rfl)

theorem Tracked.not_pending (htracked : Tracked state) (hphase : state.phase ≠ .ended) :
    state.pending = false := by
  cases hpending : state.pending with
  | false => rfl
  | true => exact absurd (htracked.pending hpending).1 hphase

theorem Tracked.setPhase {phase : Phase} (htracked : Tracked state)
    (hphase : state.phase ≠ .ended) (hrow : phase.Expects state.row)
    (hended : phase = .ended → state.row ≠ some .running) :
    Tracked { state with phase := phase } where
  row := hrow
  persisted := htracked.persisted
  finished h _ := hended h
  pending hpending := by
    have hnot := htracked.not_pending hphase
    rw [show state.pending = true from hpending] at hnot
    cases hnot

/-- Moving on from a phase that finds a terminal status. -/
theorem Tracked.conclude {phase : Phase} (htracked : Tracked state)
    (hphase : state.phase ≠ .ended)
    (hwritten : ∃ status, Terminal status ∧ state.row = some status)
    (hrow : phase.Expects state.row) : Tracked { state with phase := phase } := by
  obtain ⟨status, hterminal, hsome⟩ := hwritten
  refine htracked.setPhase hphase hrow fun _ => ?_
  rw [hsome]
  simpa using ne_running_of_terminal hterminal

theorem Tracked.write {phase : Phase} {status : RunStatus} {persisted : Bool}
    (htracked : Tracked state) (hphase : state.phase ≠ .ended) (hterminal : Terminal status)
    (hrow : phase.Expects (some status)) :
    Tracked { state with row := some status, phase := phase, persisted := persisted } where
  row := hrow
  persisted _ := ⟨status, hterminal, rfl⟩
  finished _ _ h := ne_running_of_terminal hterminal (Option.some.inj h)
  pending hpending := by
    have hnot := htracked.not_pending hphase
    rw [show state.pending = true from hpending] at hnot
    cases hnot

/-- A handler that starts its write while the row is `running`. -/
theorem Tracked.update {source : Source} {status : RunStatus} (htracked : Tracked state)
    (hphase : state.phase ≠ .ended) (hrow : state.row = some .running)
    (hterminal : Terminal status) : Tracked (state.update source status) := by
  have hunpersisted : ¬ state.persisted = true := by
    intro hpersisted
    obtain ⟨written, hwritten, hsome⟩ := htracked.persisted hpersisted
    rw [hrow] at hsome
    exact ne_running_of_terminal hwritten (Option.some.inj hsome).symm
  rw [State.update, if_neg hunpersisted]
  exact htracked.setPhase hphase ⟨hrow, hterminal⟩ (by simp)

theorem Tracked.handleCancel (htracked : Tracked state) (hphase : state.phase ≠ .ended)
    (hrow : state.row = some .running) : Tracked (state.handleCancel mode) := by
  cases mode with
  | sse => exact htracked.update hphase hrow (Or.inr (Or.inr rfl))
  | sync | background => exact htracked.setPhase hphase hrow (by simp)

theorem Tracked.propagate (htracked : Tracked state) (hphase : state.phase ≠ .ended)
    (hrow : state.row = some .running) (hmode : mode = .background) :
    Tracked (state.propagate mode) := by
  subst hmode
  exact htracked.update hphase hrow (Or.inr (Or.inl rfl))

/-- What the row is at a phase the state is known to be in. -/
theorem Tracked.row_of_phase {phase : Phase} (htracked : Tracked state)
    (hphase : state.phase = phase) : phase.Expects state.row := by
  rw [← hphase]
  exact htracked.row

theorem tracked_step (htracked : Tracked state) (horderly : Orderly mode state event)
    (hstep : step mode state event = some next) : Tracked next := by
  cases event with
  | inserted =>
    simp only [step] at hstep
    split at hstep <;> cases hstep
    next hphase =>
      have hrow : state.row = none := htracked.row_of_phase hphase
      refine ⟨?_, fun hpersisted => ?_, ?_, fun hpending => ?_⟩
      · by_cases hmode : mode = .sync <;> simp [hmode, Phase.Expects]
      · obtain ⟨status, -, hsome⟩ := htracked.persisted hpersisted
        rw [hrow] at hsome
        cases hsome
      · by_cases hmode : mode = .sync <;> simp [hmode]
      · have hended := (htracked.pending hpending).1
        rw [hphase] at hended
        cases hended
  | cancelInsert applied =>
    simp only [step] at hstep
    split at hstep <;> cases hstep
    next hphase =>
      have hrow : state.row = none := htracked.row_of_phase hphase
      have happlied : applied = false := horderly
      subst happlied
      have hsame : Tracked { state with phase := .ended } :=
        htracked.setPhase (by simp [hphase]) trivial fun _ => by simp [hrow]
      rw [show state = { state with row := none } by rw [← hrow]] at hsame
      exact hsame
  | start =>
    simp only [step] at hstep
    split at hstep <;> cases hstep
    next hphase =>
      have hrow : state.row = some .running := htracked.row_of_phase hphase
      cases mode <;> exact htracked.setPhase (by simp [hphase]) hrow (by simp)
  | prepared =>
    simp only [step] at hstep
    split at hstep <;> cases hstep
    next hphase =>
      have hrow : state.row = some .running := htracked.row_of_phase hphase
      exact htracked.setPhase (by simp [hphase]) hrow (by simp)
  | resume =>
    simp only [step] at hstep
    split at hstep <;> cases hstep
    next hphase =>
      have hrow : state.row = some .running := htracked.row_of_phase hphase
      exact htracked.setPhase (by simp [hphase]) hrow (by simp)
    next hphase =>
      have hrow : state.row = some .running := htracked.row_of_phase hphase
      exact htracked.setPhase (by simp [hphase]) hrow (by simp)
    next hphase =>
      exact htracked.conclude (by simp [hphase]) (htracked.row_of_phase hphase) trivial
  | emit =>
    simp only [step] at hstep
    split at hstep <;> cases hstep
    next hemit =>
      have hrow : state.row = some .running := htracked.row_of_phase hemit.1
      exact htracked.setPhase (by simp [hemit.1]) hrow (by simp)
  | finish returncode =>
    simp only [step] at hstep
    split at hstep
    next hphase =>
      have hrow : state.row = some .running := htracked.row_of_phase hphase
      split at hstep <;> cases hstep
      · exact htracked.handleCancel (by simp [hphase]) hrow
      · exact htracked.update (by simp [hphase]) hrow (terminal_statusOf returncode)
    · cases hstep
  | timeout =>
    simp only [step] at hstep
    split at hstep <;> cases hstep
    next hphase =>
      have hrow : state.row = some .running := htracked.row_of_phase hphase
      exact htracked.update (by simp [hphase]) hrow (Or.inr (Or.inl rfl))
  | raise =>
    have hcaught : RaiseCaught mode state.phase := horderly
    simp only [step] at hstep
    cases hphase : state.phase with
    | prelude =>
      rw [hphase] at hstep hcaught
      cases hstep
      exact htracked.propagate (by simp [hphase]) (htracked.row_of_phase hphase) hcaught
    | working =>
      rw [hphase] at hstep hcaught
      have hrow : state.row = some .running := htracked.row_of_phase hphase
      cases mode with
      | sse =>
        cases hstep
        exact htracked.update (by simp [hphase]) hrow (Or.inr (Or.inl rfl))
      | sync => exact absurd rfl hcaught
      | background =>
        cases hstep
        exact htracked.propagate (by simp [hphase]) hrow rfl
    | releasing =>
      rw [hphase] at hstep hcaught
      have hrow : state.row = some .running := htracked.row_of_phase hphase
      cases hstep
      exact htracked.propagate (by simp [hphase]) hrow hcaught
    | updating source status =>
      rw [hphase] at hstep hcaught
      obtain ⟨hrow, -⟩ := htracked.row_of_phase hphase
      cases mode with
      | sse =>
        have hbody : source = .body := hcaught
        subst hbody
        cases hstep
        exact htracked.update (by simp [hphase]) hrow (Or.inr (Or.inl rfl))
      | sync => cases source <;> first | exact absurd rfl hcaught | cases hstep
      | background =>
        cases source with
        | body =>
          cases hstep
          exact htracked.propagate (by simp [hphase]) hrow rfl
        | cancelHandler | errorHandler | recovery => cases hstep
    | inserting | launched | opening | yielding | settling _ | closing | ended =>
      rw [hphase] at hstep
      cases hstep
  | cancel applied =>
    have hhandled : CancelHandled mode state.phase applied := horderly
    simp only [step] at hstep
    cases hphase : state.phase with
    | launched | prelude | releasing =>
      rw [hphase] at hhandled
      cases hhandled
    | working =>
      rw [hphase] at hstep
      cases hstep
      exact htracked.handleCancel (by simp [hphase]) (htracked.row_of_phase hphase)
    | updating source status =>
      rw [hphase] at hstep hhandled
      obtain ⟨hrow, hterminal⟩ := htracked.row_of_phase hphase
      have hwritten : Tracked { state with row := some status, phase := .ended } :=
        htracked.write (by simp [hphase]) hterminal trivial
      cases mode with
      | sse =>
        cases source with
        | cancelHandler =>
          cases hstep
          refine ⟨trivial, htracked.persisted, ?_, fun _ => ⟨rfl, hrow⟩⟩
          intro _ hpending
          cases hpending
        | body =>
          have happlied : applied = false := hhandled
          subst happlied
          cases hstep
          have hcancelled : Tracked (state.handleCancel .sse) :=
            htracked.handleCancel (by simp [hphase]) hrow
          exact hcancelled
        | errorHandler | recovery =>
          have happlied : applied = true := hhandled
          subst happlied
          cases hstep
          exact hwritten
      | sync | background =>
        have happlied : applied = true := by simpa [CancelHandled] using hhandled
        subst happlied
        cases source <;> cases hstep <;> exact hwritten
    | settling source =>
      rw [hphase] at hstep
      cases hstep
      exact htracked.conclude (by simp [hphase]) (htracked.row_of_phase hphase) trivial
    | inserting | opening | yielding | closing | ended =>
      rw [hphase] at hstep
      cases hstep
  | close =>
    simp only [step] at hstep
    split at hstep <;> cases hstep
    next hphase => exact absurd hphase horderly.1
    next hphase => exact absurd hphase horderly.2
    next hphase =>
      exact htracked.conclude (by simp [hphase]) (htracked.row_of_phase hphase) trivial
  | released =>
    simp only [step] at hstep
    split at hstep <;> cases hstep
    next hphase =>
      exact htracked.update (by simp [hphase]) (htracked.row_of_phase hphase)
        (Or.inr (Or.inr rfl))
  | committed =>
    simp only [step] at hstep
    split at hstep <;> cases hstep
    next source status hphase =>
      obtain ⟨-, hterminal⟩ := htracked.row_of_phase hphase
      exact htracked.write (by simp [hphase]) hterminal ⟨status, hterminal, rfl⟩
  | settled =>
    simp only [step] at hstep
    split at hstep <;> cases hstep
    next source hphase =>
      have hwritten := htracked.row_of_phase hphase
      apply htracked.conclude (by simp [hphase]) hwritten
      cases mode <;> cases source <;> first | exact hwritten | exact trivial
  | shieldedCommit =>
    simp only [step] at hstep
    split at hstep <;> cases hstep
    next hpending =>
      obtain ⟨hended, -⟩ := htracked.pending hpending
      refine ⟨?_, fun _ => ⟨.cancelled, Or.inr (Or.inr rfl), rfl⟩, by simp, by simp⟩
      rw [hended]
      exact trivial
  | reconcile =>
    simp only [step] at hstep
    split at hstep <;> cases hstep
    next hrunning => exact absurd hrunning (htracked.finished horderly.1 horderly.2)

/-! ## The lifecycle -/

/-- Past its terminal status an execution writes no more. -/
theorem row_of_step_of_terminal {status : RunStatus} (htracked : Tracked state)
    (hterminal : Terminal status) (hrow : state.row = some status)
    (hstep : step mode state event = some next) : next.row = some status := by
  have hnotRunning : state.row ≠ some .running := by
    rw [hrow]
    simpa using ne_running_of_terminal hterminal
  have hnotNone : state.row ≠ none := by
    rw [hrow]
    simp
  have hlate : (∃ source, state.phase = .settling source) ∨ state.phase = .closing ∨
      state.phase = .ended := by
    cases hphase : state.phase with
    | inserting => exact absurd (htracked.row_of_phase hphase) hnotNone
    | launched | prelude | opening | working | yielding | releasing =>
      exact absurd (htracked.row_of_phase hphase) hnotRunning
    | updating source written => exact absurd (htracked.row_of_phase hphase).1 hnotRunning
    | settling source => exact Or.inl ⟨source, rfl⟩
    | closing => exact Or.inr (Or.inl rfl)
    | ended => exact Or.inr (Or.inr rfl)
  have hpending : ¬ state.pending = true := fun h => hnotRunning (htracked.pending h).2
  rw [← hrow]
  rcases hlate with ⟨source, hphase⟩ | hphase | hphase <;> cases event <;>
    simp only [step, hphase, hpending, hnotRunning, reduceCtorEq, if_false, false_and] at hstep <;>
    cases hstep <;> rfl

/-- **The run history.** Along every orderly run the row of an ended execution is
not `running`, and a terminal row never changes again. -/
theorem lifecycle_safe_of_orderly
    (hpath : (machine mode).Path (Orderly mode) events state) :
    LifecycleSafe mode (Orderly mode) state := by
  have htracked : Tracked state := hpath.invariant tracked_init fun h horderly hstep =>
    tracked_step h horderly hstep
  exact ⟨htracked.finished, fun event next _ hstep status hterminal hrow =>
    row_of_step_of_terminal htracked hterminal hrow hstep⟩

/-- A streamed run whose client goes away while dbt runs: its cancelled task
writes the status, shielded from a second cancellation. -/
theorem lifecycle_safe_of_cancelled_stream :
    ∃ state, LifecycleSafe .sse (Orderly .sse) state ∧ state.phase = .ended ∧
      state.row = some .cancelled := by
  obtain ⟨state, hrun, hended, hrow⟩ : ∃ state,
      (machine .sse).runUnder (Orderly .sse) (machine .sse).init
        [.inserted, .start, .resume, .emit, .resume, .cancel false, .cancel false,
          .shieldedCommit] = some state ∧
      state.phase = .ended ∧ state.row = some .cancelled := ⟨_, rfl, rfl, rfl⟩
  exact ⟨state, lifecycle_safe_of_orderly (Machine.path_of_runUnder hrun), hended, hrow⟩

/-- A `run_command` awaited by its endpoint is refused a global slot, and its row
stays `running`. -/
theorem not_lifecycle_safe_of_refused_slot :
    ¬ ∀ (mode : Mode) (events : List Event) (state : State),
      (machine mode).Path Machine.anyStep events state →
        LifecycleSafe mode Machine.anyStep state := by
  intro hclaim
  obtain ⟨state, hrun, hended, hpending, hrow⟩ : ∃ state,
      (machine .sync).runFrom (machine .sync).init [.inserted, .raise] = some state ∧
      state.phase = .ended ∧ state.pending = false ∧ state.row = some .running :=
    ⟨_, rfl, rfl, rfl, rfl⟩
  exact (hclaim _ _ _ (Machine.path_of_runFrom hrun)).finished hended hpending hrow

end DbtCraft.Services.RunLifecycle

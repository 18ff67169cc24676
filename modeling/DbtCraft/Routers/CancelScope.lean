/-
# A cancel by run id affects only that run

Everything `cancel_dbt_run` acts on is found by project id: the child its worker
tracks, the marker every runner of the project looks at, and the key of the run
lock. It hits the run it names as long as no other run is inside its locked body
when it acts, and no run starts a child under the marker of another. A run that
waits for the lock while another executes is enough to break the first, since
its row is `running` too.
-/

import DbtCraft.Core.LockExclusion
import DbtCraft.Routers.CancelRun
import DbtCraft.Services.CommandSteps

namespace DbtCraft.Routers.CancelRun

open DbtCraft.Math DbtCraft.Core DbtCraft.Services DbtCraft.Services.RunOutcome

universe uω uρ uα uκ

variable {ω : Type uω} {ρ : Type uρ} {α : Type uα} {κ : Type uκ}
  {project : Project ω ρ α κ} {state next : State ω ρ α κ} {event : Event ρ α κ}
  {events : List (Event ρ α κ)}

/-- No run but the one the request names is inside its locked body. -/
def Solo (project : Project ω ρ α κ) (state : State ω ρ α κ) (cancel : κ) : Prop :=
  ∀ run, state.lock.phase run = .inside → run = project.runOf cancel

/-- A request acts while its run is the only one inside, and a child starts under
no marker but one set for its own run. -/
def ScopedStep (project : Project ω ρ α κ) (state : State ω ρ α κ) (event : Event ρ α κ) :
    Prop :=
  match event with
  | .command (.mark cancel _) | .command (.terminate cancel) | .forceRelease cancel =>
    Solo project state cancel
  | .command (.start child _) =>
    ∀ cancel ∈ state.command.cancelled.get (), project.runOf cancel = project.owner child
  | _ => True

/-- Why a row may be `cancelled`: its own cancel was requested, its own task was
cancelled, or its child exited with the code -1. -/
def Accounted (project : Project ω ρ α κ) (state : State ω ρ α κ) (run : ρ) : Prop :=
  (∃ cancel, project.runOf cancel = run ∧ state.endpoint cancel ≠ .idle) ∨
    ∃ child, project.owner child = run ∧
      (state.command.phase child = .finished .taskCancelled ∨
        state.command.phase child = .finished (.exited (-1)))

/-! ## The invariant -/

/-- A child in progress is the one its run awaits inside its locked body; a
marker live during it, a signal to it and its report as cancelled are those of
its own run's cancel. -/
structure Scoped (project : Project ω ρ α κ) (state : State ω ρ α κ) : Prop where
  active : ∀ child, (state.command.phase child).Active →
    state.current (project.owner child) = some child ∧
      state.lock.phase (project.owner child) = .inside
  tracked : Command.TracksRunning project.deployment state.command
  marked : ∀ child exit cancel, state.command.phase child = .running exit →
    state.command.cancelled.get () = some cancel →
    project.runOf cancel = project.owner child
  requested : ∀ cancel, state.command.cancelled.get () = some cancel →
    state.endpoint cancel ≠ .idle
  terminated : ∀ cancel child, state.command.cancelPhase cancel = .terminating child →
    project.owner child = project.runOf cancel
  reported : ∀ child, state.command.ReportsMarker child →
    ∃ cancel, project.runOf cancel = project.owner child ∧ state.endpoint cancel ≠ .idle
  recorded : ∀ run, state.row run = some .cancelled → Accounted project state run

/-- A running child is inside its run's locked body. -/
theorem Scoped.inside_of_running {child : α} {exit : Option ℤ} (hscoped : Scoped project state)
    (hrunning : state.command.phase child = .running exit) :
    state.lock.phase (project.owner child) = .inside := by
  apply (hscoped.active child _).2
  rw [hrunning]
  exact trivial

/-- Steps of the lock that leave the awaited children inside. -/
theorem Scoped.setLock {lock : FileLock.State ρ} (hscoped : Scoped project state)
    (hinside : ∀ run, state.current run ≠ none → state.lock.phase run = .inside →
      lock.phase run = .inside) :
    Scoped project { state with lock := lock } where
  active child hactive := by
    obtain ⟨hcurrent, hbefore⟩ := hscoped.active child hactive
    exact ⟨hcurrent, hinside _ (by simp [hcurrent]) hbefore⟩
  tracked := hscoped.tracked
  marked := hscoped.marked
  requested := hscoped.requested
  terminated := hscoped.terminated
  reported := hscoped.reported
  recorded := hscoped.recorded

/-- Requests that move on stay requested. -/
theorem Scoped.setEndpoint [DecidableEq κ] {cancel : κ} {phase : Endpoint} (hscoped : Scoped project state)
    (hphase : phase ≠ .idle) :
    Scoped project { state with endpoint := Function.update state.endpoint cancel phase } := by
  have hkept : ∀ other, state.endpoint other ≠ .idle →
      Function.update state.endpoint cancel phase other ≠ .idle := by
    intro other hother
    by_cases heq : other = cancel
    · simpa [heq] using hphase
    · simpa [heq] using hother
  refine ⟨hscoped.active, hscoped.tracked, hscoped.marked,
    fun other hmarker => hkept other (hscoped.requested other hmarker), hscoped.terminated, ?_, ?_⟩
  · intro child hreports
    obtain ⟨other, htarget, hother⟩ := hscoped.reported child hreports
    exact ⟨other, htarget, hkept other hother⟩
  · intro run hrow
    rcases hscoped.recorded run hrow with ⟨other, htarget, hother⟩ | hown
    · exact Or.inl ⟨other, htarget, hkept other hother⟩
    · exact Or.inr hown

/-- Writing a row that is accounted for if it is `cancelled`. -/
theorem Scoped.setRow [DecidableEq ρ] {run : ρ} {status : RunStatus} (hscoped : Scoped project state)
    (haccounted : status = .cancelled → Accounted project state run) :
    Scoped project { state with row := Function.update state.row run (some status) } := by
  refine { hscoped with recorded := fun other hrow => ?_ }
  by_cases heq : other = run
  · subst heq
    apply haccounted
    simpa using hrow
  · exact hscoped.recorded other (by simpa [heq] using hrow)

variable [DecidableEq ω] [DecidableEq ρ] [DecidableEq α] [DecidableEq κ]

instance [Fintype ρ] (project : Project ω ρ α κ) (state : State ω ρ α κ) (cancel : κ) :
    Decidable (Solo project state cancel) :=
  inferInstanceAs (Decidable (∀ run, state.lock.phase run = .inside →
    run = project.runOf cancel))

instance [Fintype ρ] (project : Project ω ρ α κ) (state : State ω ρ α κ) :
    (event : Event ρ α κ) → Decidable (ScopedStep project state event)
  | .command (.mark cancel _) | .command (.terminate cancel) | .forceRelease cancel =>
    inferInstanceAs (Decidable (Solo project state cancel))
  | .command (.start child _) =>
    inferInstanceAs (Decidable (∀ cancel ∈ state.command.cancelled.get (),
      project.runOf cancel = project.owner child))
  | .command (.childExit _ _) | .command (.check _ _) | .command (.timeout _)
  | .command (.cancelTask _) | .command (.close _ _) | .command (.reap _)
  | .command (.unregister _ _) | .command (.clearRegistered _) | .command (.clearCancelled _)
  | .command .tick | .insert _ | .lock _ | .request _ | .record _ | .tick => isTrue trivial

theorem scoped_init : Scoped project (machine project).init where
  active child hactive := by cases hactive
  tracked worker processId child htracked := by cases htracked
  marked child exit cancel hrunning := by cases hrunning
  requested cancel hmarker := by cases hmarker
  terminated cancel child hterminating := by cases hterminating
  reported child hreports := by rcases hreports with h | h <;> cases h
  recorded run hrow := by cases hrow

/-- Steps of the children and of `CommandService.cancel`. -/
theorem Scoped.command {event : Command.Event Unit α κ} {command : Command.State Unit ω α κ}
    (hscoped : Scoped project state) (hpermitted : ScopedStep project state (.command event))
    (hadmits : state.CommandAdmits project event)
    (hstep : Command.step project.deployment state.command event = some command) :
    Scoped project
      { state with command := command, current := state.awaited project event } where
  active child hactive := by
    rcases Command.active_of_step hstep hactive with hbefore | ⟨stored, rfl⟩
    · obtain ⟨hcurrent, hinside⟩ := hscoped.active child hbefore
      refine ⟨?_, hinside⟩
      cases event with
      | start other stored =>
        -- A run that awaits a child starts no other.
        have hother : project.owner child ≠ project.owner other := by
          intro heq
          rw [heq, hadmits.2] at hcurrent
          cases hcurrent
        simpa [State.awaited, hother] using hcurrent
      | close other stored =>
        have hother : project.owner child ≠ project.owner other := by
          intro heq
          have hclosing : (state.command.phase other).Active := by
            simp only [Command.step] at hstep
            split at hstep <;> cases hstep
            next hphase =>
              rw [hphase]
              exact trivial
          rw [heq, (hscoped.active other hclosing).1] at hcurrent
          obtain rfl := Option.some.inj hcurrent
          simp only [Command.step] at hstep
          split at hstep <;> cases hstep
          simp [Command.Phase.Active] at hactive
        simpa [State.awaited, hother] using hcurrent
      | _ => exact hcurrent
    · exact ⟨by simp [State.awaited], hadmits.1⟩
  tracked := Command.tracksRunning_step hscoped.tracked hstep
  marked child exit cancel hrunning hmarker := by
    rcases Command.marker_of_step hstep hmarker with hlive | ⟨rfl, -⟩
    · rcases Command.running_of_step hstep hrunning with ⟨earlier, hbefore⟩ | ⟨stored, rfl⟩
      · exact hscoped.marked child earlier cancel hbefore hlive
      · exact hpermitted cancel hlive
    · rcases Command.running_of_step hstep hrunning with ⟨earlier, hbefore⟩ | ⟨stored, hevent⟩
      · exact (hpermitted _ (hscoped.inside_of_running hbefore)).symm
      · cases hevent
  requested cancel hmarker := by
    rcases Command.marker_of_step hstep hmarker with hlive | ⟨rfl, -⟩
    · exact hscoped.requested cancel hlive
    · have hendpoint : state.endpoint cancel = .cancelling := hadmits
      show state.endpoint cancel ≠ .idle
      rw [hendpoint]
      simp
  terminated cancel child hterminating := by
    rcases Command.terminating_of_step hstep hterminating with hbefore | ⟨rfl, htracked⟩
    · exact hscoped.terminated cancel child hbefore
    · obtain ⟨-, -, exit, hrunning⟩ := hscoped.tracked _ _ _ htracked
      exact hpermitted _ (hscoped.inside_of_running hrunning)
  reported child hreports := by
    rcases Command.reportsMarker_of_step hstep hreports with
      hbefore | ⟨answered, rfl, ⟨exit, hrunning⟩, cancel, hmarker⟩
    · exact hscoped.reported child hbefore
    · exact ⟨cancel, hscoped.marked child exit cancel hrunning hmarker,
        hscoped.requested cancel hmarker⟩
  recorded run hrow := by
    rcases hscoped.recorded run hrow with hrequested | ⟨child, howner, htask | hexit⟩
    · exact Or.inl hrequested
    · exact Or.inr ⟨child, howner, Or.inl (Command.finished_of_step hstep htask)⟩
    · exact Or.inr ⟨child, howner, Or.inr (Command.finished_of_step hstep hexit)⟩

theorem scoped_step (hscoped : Scoped project state)
    (hpermitted : ScopedStep project state event)
    (hstep : step project state event = some next) : Scoped project next := by
  cases event with
  | insert run =>
    simp only [step] at hstep
    split at hstep <;> cases hstep
    exact hscoped.setRow (by simp)
  | lock event =>
    simp only [step] at hstep
    split at hstep
    next hadmits =>
      obtain ⟨lock, hlock, rfl⟩ := Option.map_eq_some_iff.mp hstep
      refine hscoped.setLock fun run hcurrent hinside => ?_
      refine FileLock.inside_of_step_of_not_leave hlock hinside fun ending hleave => ?_
      subst hleave
      exact hcurrent hadmits
    · cases hstep
  | command event =>
    simp only [step] at hstep
    split at hstep
    next hadmits =>
      obtain ⟨command, hcommand, rfl⟩ := Option.map_eq_some_iff.mp hstep
      exact hscoped.command hpermitted hadmits hcommand
    · cases hstep
  | request cancel =>
    simp only [step] at hstep
    split at hstep <;> cases hstep
    exact hscoped.setEndpoint (by simp)
  | forceRelease cancel =>
    simp only [step] at hstep
    split at hstep
    · obtain ⟨lock, hlock, rfl⟩ := Option.map_eq_some_iff.mp hstep
      refine (hscoped.setLock fun run _ hinside => ?_).setEndpoint (by simp)
      exact FileLock.inside_of_step_of_not_leave hlock hinside (by simp)
    · cases hstep
  | record child =>
    simp only [step] at hstep
    split at hstep
    next report hfinished =>
      split at hstep <;> cases hstep
      apply hscoped.setRow
      intro hcancelled
      cases hrunner : project.runner (project.owner child) with
      | runCancellable =>
        rw [hrunner] at hcancelled
        cases report with
        | exited returncode =>
          simp only [reportStatus] at hcancelled
          split at hcancelled <;> cases hcancelled
        | markerSeen | timedOut | taskCancelled => cases hcancelled
      | streaming =>
        rw [hrunner] at hcancelled
        cases report with
        | exited returncode =>
          by_cases hcode : returncode = -1
          · exact Or.inr ⟨child, rfl, Or.inr (by rw [hfinished, hcode])⟩
          · simp only [reportStatus, if_neg hcode] at hcancelled
            split at hcancelled <;> cases hcancelled
        | markerSeen => exact Or.inl (hscoped.reported child (Or.inr hfinished))
        | timedOut => cases hcancelled
        | taskCancelled => exact Or.inr ⟨child, rfl, Or.inl hfinished⟩
    · cases hstep
  | tick =>
    simp only [step] at hstep
    obtain ⟨lock, hlock, hrest⟩ := Option.bind_eq_some_iff.mp hstep
    obtain ⟨command, hcommand, rfl⟩ := Option.map_eq_some_iff.mp hrest
    have hlocked := hscoped.setLock fun run _ hinside =>
      FileLock.inside_of_step_of_not_leave hlock hinside (by simp)
    cases hcommand
    exact {
      active := hlocked.active
      tracked := hscoped.tracked
      marked := fun child exit cancel hrunning hmarker =>
        hscoped.marked child exit cancel hrunning (Redis.Store.get_of_get_elapse hmarker)
      requested := fun cancel hmarker =>
        hscoped.requested cancel (Redis.Store.get_of_get_elapse hmarker)
      terminated := hscoped.terminated
      reported := hscoped.reported
      recorded := hscoped.recorded }

/-- What a cancel by run id promises: it terminates no child of another run, no
other run is recorded as cancelled for it, and it frees no lock another run
holds. -/
structure CancelScoped (project : Project ω ρ α κ)
    (allowed : State ω ρ α κ → Event ρ α κ → Prop) (state : State ω ρ α κ) : Prop where
  terminated : ∀ cancel child, state.command.cancelPhase cancel = .terminating child →
    project.owner child = project.runOf cancel
  recorded : ∀ run, state.row run = some .cancelled → Accounted project state run
  unlocked : ∀ cancel next, allowed state (.forceRelease cancel) →
    step project state (.forceRelease cancel) = some next →
    ∀ run, run ≠ project.runOf cancel → state.lock.Holds project.callers run →
      next.lock.Holds project.callers run

/-- A cancel by run id affects only its run along every run of scoped steps. -/
theorem cancel_scoped_of_scoped_steps
    (hpath : (machine project).Path (ScopedStep project) events state) :
    CancelScoped project (ScopedStep project) state := by
  have hscoped : Scoped project state :=
    hpath.invariant scoped_init fun h hpermitted hstep => scoped_step h hpermitted hstep
  refine ⟨hscoped.terminated, hscoped.recorded, ?_⟩
  intro cancel next hsolo _ run hother hholds
  exact absurd (hsolo run hholds.1) hother

/-- Two runs of a project, each with one child, and a request to cancel one. -/
def twoRuns (runner : Command.Runner) (cancelled : Fin 2) :
    Project Unit (Fin 2) (Fin 2) Unit where
  settings := {}
  runner _ := runner
  worker _ := ()
  owner := id
  runOf _ := cancelled
  cancelWorker _ := ()

/-- The first run is cancelled while the second waits for the lock. -/
theorem cancel_scoped_of_executing_run :
    ∃ events state,
      (machine (twoRuns .streaming 0)).Path (ScopedStep (twoRuns .streaming 0)) events state ∧
        state.lock.phase 1 = .waiting 0 ∧ state.row 0 = some .cancelled ∧
        state.row 1 = some .running ∧
        CancelScoped (twoRuns .streaming 0) (ScopedStep (twoRuns .streaming 0)) state := by
  obtain ⟨state, hrun, hwaiting, hfirst, hsecond⟩ :
      ∃ state, (machine (twoRuns .streaming 0)).runUnder (ScopedStep (twoRuns .streaming 0))
        (machine (twoRuns .streaming 0)).init
        [.insert 0, .lock (.enter 0), .lock (.attempt 0), .command (.start 0 true),
          .insert 1, .lock (.enter 1), .request (), .command (.mark () true),
          .command (.terminate ()), .command (.childExit 0 (-15)), .command (.check 0 true),
          .command (.close 0 true), .record 0, .command (.reap ()),
          .command (.unregister () true), .forceRelease ()] = some state ∧
        state.lock.phase 1 = .waiting 0 ∧ state.row 0 = some .cancelled ∧
        state.row 1 = some .running := ⟨_, rfl, rfl, rfl, rfl⟩
  have hpath := Machine.path_of_runUnder hrun
  exact ⟨_, state, hpath, hwaiting, hfirst, hsecond, cancel_scoped_of_scoped_steps hpath⟩

/-- Cancelling the run that waits for the lock terminates the child of the one
that executes. -/
theorem not_cancel_scoped_of_waiting_run :
    ¬ ∀ (project : Project Unit (Fin 2) (Fin 2) Unit) events state,
      (machine project).Path Machine.anyStep events state →
      CancelScoped project Machine.anyStep state := by
  intro hclaim
  obtain ⟨state, hrun, hterminating⟩ :
      ∃ state, (machine (twoRuns .runCancellable 1)).runFrom
        (machine (twoRuns .runCancellable 1)).init
        [.insert 0, .lock (.enter 0), .lock (.attempt 0), .command (.start 0 true),
          .insert 1, .lock (.enter 1), .request (), .command (.mark () true),
          .command (.terminate ())] = some state ∧
        state.command.cancelPhase () = .terminating 0 := ⟨_, rfl, rfl⟩
  have hscoped := hclaim _ _ _ (Machine.path_of_runFrom hrun)
  have howner := hscoped.terminated () 0 hterminating
  cases howner

end DbtCraft.Routers.CancelRun

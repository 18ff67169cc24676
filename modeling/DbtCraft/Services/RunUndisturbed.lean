/-
# A run in progress is executed once and undisturbed

A run whose worker was stopped by another request executes its command again. In
runs of orderly steps that does not happen: a command is executed again only
after it failed by itself, as long as, besides, the recycling of a worker does not
fail after a command that succeeded or was cancelled.
-/

import DbtCraft.Services.RunExclusion

namespace DbtCraft.Services.RunExecution

open DbtCraft.Math DbtCraft.Core

universe uρ uα

variable {ρ : Type uρ} {α : Type uα} {project : Project ρ α} {state next : State ρ α}
  {event : Event ρ α} {events : List (Event ρ α)} {run : ρ} {task : α}

/-! ## Executions -/

def AllFailed (executions : List Execution) : Prop :=
  ∀ execution ∈ executions, execution.FailedByItself

theorem AllFailed.dropLast {executions : List Execution} (hfailed : AllFailed executions) :
    AllFailed executions.dropLast :=
  fun execution hexecution => hfailed execution (List.mem_of_mem_dropLast hexecution)

/-- The last execution failed as well. -/
theorem AllFailed.append {executions : List Execution} {ended : Execution}
    (hfailed : AllFailed executions) (hended : ended.FailedByItself) :
    AllFailed (executions ++ [ended]) := by
  intro execution hexecution
  rcases List.mem_append.mp hexecution with hearlier | hlast
  · exact hfailed execution hearlier
  · rw [List.mem_singleton.mp hlast]
    exact hended

/-- The executions of a run whose call is past its command; `stopped` tells whether
the user stopped it. -/
structure Concluded (executions : List Execution) (outcome : Option Outcome)
    (stopped : Prop) : Prop where
  earlier : AllFailed executions.dropLast
  last : ∀ last ∈ executions.getLast?,
    last.FailedByItself ∨ last = .returned 0 ∨ last = .cancelled ∨ last = .stopped ∧ stopped
  raised : outcome = some (.raised .worker) → AllFailed executions ∨ stopped
  returned : ∀ returncode conflict, outcome = some (.returned returncode conflict) →
    returncode ≠ 0 → AllFailed executions

namespace Concluded

variable {executions : List Execution} {outcome : Option Outcome} {stopped later : Prop}

theorem mono (hconcluded : Concluded executions outcome stopped) (hlater : stopped → later) :
    Concluded executions outcome later where
  earlier := hconcluded.earlier
  last last hlast := (hconcluded.last last hlast).imp_right
    (Or.imp_right (Or.imp_right fun hstopped => ⟨hstopped.1, hlater hstopped.2⟩))
  raised hraised := (hconcluded.raised hraised).imp_right hlater
  returned := hconcluded.returned

/-- The call ends without another execution. -/
theorem of_allFailed (hfailed : AllFailed executions) : Concluded executions outcome stopped where
  earlier := hfailed.dropLast
  last last hlast := Or.inl (hfailed last (List.mem_of_mem_getLast? hlast))
  raised _ := Or.inl hfailed
  returned _ _ _ _ := hfailed

theorem conclude {ended : Execution} (hfailed : AllFailed executions.dropLast)
    (hended : ended.FailedByItself ∨ ended = .returned 0 ∨ ended = .cancelled ∨
      ended = .stopped ∧ stopped)
    (hraised : outcome = some (.raised .worker) → ended.FailedByItself ∨ stopped)
    (hreturned : ∀ returncode conflict, outcome = some (.returned returncode conflict) →
      returncode ≠ 0 → ended.FailedByItself) :
    Concluded (executions.dropLast ++ [ended]) outcome stopped where
  earlier := by rwa [List.dropLast_concat]
  last := by
    intro last hlast
    rw [List.getLast?_concat] at hlast
    cases hlast
    exact hended
  raised hworker := (hraised hworker).imp_left hfailed.append
  returned returncode conflict hcode hnonzero :=
    hfailed.append (hreturned returncode conflict hcode hnonzero)

theorem raise {failure : Failure} (hconcluded : Concluded executions outcome stopped)
    (hmay : failure = .worker → ∀ last ∈ executions.getLast?,
      last ≠ .returned 0 ∧ last ≠ .cancelled) :
    Concluded executions (some (.raised failure)) stopped where
  earlier := hconcluded.earlier
  last := hconcluded.last
  raised hworker := by
    cases hworker
    cases hlast : executions.getLast? with
    | none =>
      rw [List.getLast?_eq_none_iff.mp hlast]
      exact Or.inl (by intro execution hexecution; cases hexecution)
    | some last =>
      obtain ⟨hzero, hcancelled⟩ := hmay rfl last hlast
      rcases hconcluded.last last hlast with hfailed | hreturned | hended | ⟨-, hstopped⟩
      · rw [← List.dropLast_append_getLast? last hlast]
        exact Or.inl (hconcluded.earlier.append hfailed)
      · exact absurd hreturned hzero
      · exact absurd hended hcancelled
      · exact Or.inr hstopped
  returned returncode conflict hcode := by cases hcode

end Concluded

/-- What the executions of a run are, by where it is. -/
def State.Sound (state : State ρ α) (run : ρ) : Prop :=
  match state.body run with
  | .ready _ => AllFailed (state.executions run)
  | .inWorker _ task epoch =>
    match (state.pool.phase task).stage with
    | .before => AllFailed (state.executions run)
    | .executing => AllFailed (state.executions run).dropLast
    | .after => Concluded (state.executions run) (state.outcome task)
        (epoch < state.pool.cancellations ())
  | .inSubprocess _ | .ended => AllFailed (state.executions run).dropLast

/-- A command was executed again because it had failed. -/
theorem State.Sound.once (hsound : state.Sound run) : AllFailed (state.executions run).dropLast := by
  unfold State.Sound at hsound
  split at hsound
  · exact hsound.dropLast
  · split at hsound
    · exact hsound.dropLast
    · exact hsound
    · exact hsound.earlier
  · exact hsound
  · exact hsound

theorem State.Sound.frame (hsound : state.Sound run) (hbody : next.body run = state.body run)
    (hexecutions : next.executions run = state.executions run)
    (htask : ∀ attempt task epoch, state.body run = .inWorker attempt task epoch →
      (next.pool.phase task).stage = (state.pool.phase task).stage ∧
        next.outcome task = state.outcome task)
    (hcancellations : state.pool.cancellations () ≤ next.pool.cancellations ()) :
    next.Sound run := by
  unfold State.Sound at hsound ⊢
  rw [hbody, hexecutions]
  cases hworker : state.body run with
  | inWorker attempt task epoch =>
    obtain ⟨hstage, houtcome⟩ := htask attempt task epoch hworker
    simp only [hworker] at hsound
    simp only [hstage, houtcome]
    cases hbefore : (state.pool.phase task).stage with
    | before | executing =>
      simp only [hbefore] at hsound
      exact hsound
    | after =>
      simp only [hbefore] at hsound
      exact hsound.mono fun hstopped => hstopped.trans_le hcancellations
  | ready _ | inSubprocess _ | ended =>
    simp only [hworker] at hsound
    exact hsound

section

variable {attempt epoch : ℕ}

theorem State.sound_before (hbody : state.body run = .inWorker attempt task epoch)
    (hstage : (state.pool.phase task).stage = .before) :
    state.Sound run ↔ AllFailed (state.executions run) := by
  simp only [State.Sound, hbody, hstage]

theorem State.sound_executing (hbody : state.body run = .inWorker attempt task epoch)
    (hstage : (state.pool.phase task).stage = .executing) :
    state.Sound run ↔ AllFailed (state.executions run).dropLast := by
  simp only [State.Sound, hbody, hstage]

theorem State.sound_after (hbody : state.body run = .inWorker attempt task epoch)
    (hstage : (state.pool.phase task).stage = .after) :
    state.Sound run ↔ Concluded (state.executions run) (state.outcome task)
      (epoch < state.pool.cancellations ()) := by
  simp only [State.Sound, hbody, hstage]

/-- How an execution ends with an exception. -/
theorem State.endOf_cases (state : State ρ α) (worker : WarmPool.Worker) (failure : Failure) :
    state.endOf worker failure = .failed ∨
      failure = .cancelled ∧ state.endOf worker failure = .cancelled ∨
      state.endOf worker failure = .stopped ∧ worker ∈ state.stopped := by
  by_cases hstopped : worker ∈ state.stopped
  · cases failure <;> simp [State.endOf, hstopped]
  · cases failure <;> simp [State.endOf, hstopped]

/-- The worker that `release_project` stopped under a run was stopped by the user. -/
theorem cancelled_of_stopped {pool : ℕ} {worker : WarmPool.Worker}
    (hpool : PoolRight project state) (hright : RunRight project state)
    (hbody : state.body run = .inWorker attempt task epoch)
    (hphase : state.pool.phase task = .executing pool worker) (hstopped : worker ∈ state.stopped) :
    epoch < state.pool.cancellations () := by
  have huser := (hpool.apart.inHand task worker (by rw [hphase]; rfl)).1
  rcases (hright.epoch run attempt task epoch hbody).2 worker.pool huser with hregistered | hraised
  · exact absurd hregistered (hpool.stopped worker hstopped).2
  · exact hraised

end

theorem State.sound_of_earlier (hbody : state.body run = .ended ∨ ∃ attempt,
    state.body run = .inSubprocess attempt) (hearlier : AllFailed (state.executions run).dropLast) :
    state.Sound run := by
  unfold State.Sound
  rcases hbody with hended | ⟨attempt, hsubprocess⟩
  · rw [hended]
    exact hearlier
  · rw [hsubprocess]
    exact hearlier

/-- The retry loop goes round after a failure only. -/
theorem State.sound_of_settle {attempt : ℕ} {returncode : ℤ} {conflict : Bool}
    (hbody : state.body run = .settle attempt returncode conflict)
    (hearlier : AllFailed (state.executions run).dropLast)
    (hfailed : returncode ≠ 0 → AllFailed (state.executions run)) : state.Sound run := by
  by_cases hagain : returncode ≠ 0 ∧ conflict ∧ attempt < 2
  · rw [Body.settle, if_pos hagain] at hbody
    simp only [State.Sound, hbody]
    exact hfailed hagain.1
  · rw [Body.settle, if_neg hagain] at hbody
    exact state.sound_of_earlier (Or.inl hbody) hearlier

/-! ### Steps of the pool -/

section

variable [DecidableEq α] {event : WarmPool.Event Unit α} {attempt epoch : ℕ}

theorem State.Sound.others (hsound : state.Sound run) (hmoves : PoolMoves project state next event)
    (hother : ∀ attempt task epoch, state.body run = .inWorker attempt task epoch →
      event.actor ≠ some task) : next.Sound run := by
  apply hsound.frame (congrFun hmoves.body run)
  · apply hmoves.executions
    intro task hactor hpurpose
    have hcalled := hmoves.called task hactor
    unfold State.Called at hcalled
    rw [hpurpose] at hcalled
    cases hbody : state.body run with
    | inWorker attempt current epoch =>
      simp only [hbody] at hcalled
      subst hcalled
      exact hother attempt current epoch hbody hactor
    | ready _ | inSubprocess _ | ended => simp only [hbody] at hcalled
  · intro attempt task epoch hbody
    have hne := hother attempt task epoch hbody
    exact ⟨by rw [WarmPool.phase_of_step_of_ne hmoves.step hne], hmoves.outcome task hne⟩
  · exact (WarmPool.counters_of_step hmoves.step).2 ()

theorem stage_of_moves (hpool : PoolRight project state) (hright : RunRight project state)
    (hmoves : PoolMoves project state next event)
    (hbody : state.body run = .inWorker attempt task epoch) (hactor : event.actor = some task) :
    (next.pool.phase task).stage = event.stage (state.pool.phase task).stage := by
  have hjob : project.pools.job task = .run () := by
    simp only [Project.pools, hright.own run attempt task epoch hbody]
  apply WarmPool.stage_of_step hmoves.step hactor hjob
  intro pool index hreleasing
  obtain ⟨cancel, hrelease⟩ := (hpool.releasing task pool index hreleasing).1
  rw [hjob] at hrelease
  cases hrelease

variable [DecidableEq ρ]

omit [DecidableEq α] in
theorem State.launch_self : state.launch run run = state.executions run ++ [Execution.running] :=
  Function.update_self ..

omit [DecidableEq α] in
theorem State.conclude_self {ended : Execution} :
    state.conclude run ended run = (state.executions run).dropLast ++ [ended] :=
  Function.update_self ..

/-- Steps that say nothing about how a call ends. -/
theorem State.Sound.pool (hsound : state.Sound run) (hpool : PoolRight project state)
    (hright : RunRight project state) (hstep : step project state (.pool event) = some next) :
    next.Sound run := by
  obtain ⟨hmoves, hsilent, hexecutions, houtcome, -⟩ := poolMoves_of_pool hstep
  by_cases hown : ∃ attempt task epoch,
      state.body run = .inWorker attempt task epoch ∧ event.actor = some task
  · obtain ⟨attempt, task, epoch, hbody, hactor⟩ := hown
    have hstage := stage_of_moves hpool hright hmoves hbody hactor
    by_cases hsubmit : event = .submit task
    · subst hsubmit
      rw [State.sound_before hbody (WarmPool.stage_of_submit hmoves.step)] at hsound
      rw [State.sound_executing ((congrFun hmoves.body run).trans hbody) hstage, hexecutions]
      simp only [State.executionsAfter, hright.own run attempt task epoch hbody]
      rw [State.launch_self, List.dropLast_concat]
      exact hsound
    · have hquiet : event.stage (state.pool.phase task).stage = (state.pool.phase task).stage ∧
          state.executionsAfter project event = state.executions := by
        cases event with
        | submit actor =>
          cases hactor
          exact absurd rfl hsubmit
        | complete _ | giveUp _ | queueTimeout _ | interrupt _ => cases hsilent
        | _ => exact ⟨rfl, rfl⟩
      apply hsound.frame (congrFun hmoves.body run)
      · rw [hexecutions, hquiet.2]
      · intro other current started hother
        cases hbody.symm.trans hother
        exact ⟨hstage.trans hquiet.1, by rw [houtcome]⟩
      · exact (WarmPool.counters_of_step hmoves.step).2 ()
  · exact hsound.others hmoves fun attempt task epoch hbody hactor =>
      hown ⟨attempt, task, epoch, hbody, hactor⟩

theorem State.Sound.complete {actor : α} {returncode : ℤ} {conflict : Bool}
    (hsound : state.Sound run) (hpool : PoolRight project state) (hright : RunRight project state)
    (hstep : step project state (.complete actor returncode conflict) = some next) :
    next.Sound run := by
  obtain ⟨hmoves, houtcome, hexecutions, -⟩ := poolMoves_of_complete hstep
  by_cases hown : ∃ attempt epoch, state.body run = .inWorker attempt actor epoch
  · obtain ⟨attempt, epoch, hbody⟩ := hown
    have hstage := stage_of_moves hpool hright hmoves hbody rfl
    rw [State.sound_executing hbody (WarmPool.stage_of_complete hmoves.step)] at hsound
    rw [State.sound_after ((congrFun hmoves.body run).trans hbody) hstage, houtcome,
      hexecutions run (hright.own run attempt actor epoch hbody), State.conclude_self]
    apply Concluded.conclude hsound
    · by_cases hzero : returncode = 0
      · exact Or.inr (Or.inl (by rw [hzero]))
      · exact Or.inl hzero
    · intro hraised
      cases hraised
    · intro code conflict hreturned hfailed
      cases hreturned
      exact hfailed
  · apply hsound.others hmoves
    intro attempt task epoch hbody hactor
    cases hactor
    exact hown ⟨attempt, epoch, hbody⟩

theorem State.Sound.fail {failure : Failure} (hsound : state.Sound run)
    (hpool : PoolRight project state) (hright : RunRight project state)
    (horderly : Orderly project state (.fail event failure))
    (hstep : step project state (.fail event failure) = some next) : next.Sound run := by
  obtain ⟨hmoves, actor, hfailing, houtcome, hexecutions, -⟩ := poolMoves_of_fail hstep
  have hactor := actor_of_failing hfailing
  by_cases hown : ∃ attempt epoch, state.body run = .inWorker attempt actor epoch
  · obtain ⟨attempt, epoch, hbody⟩ := hown
    have hpurpose := hright.own run attempt actor epoch hbody
    have hraised := (WarmPool.counters_of_step hmoves.step).2 ()
    have hstage : (next.pool.phase actor).stage = .after := by
      rw [stage_of_moves hpool hright hmoves hbody hactor]
      cases event <;> first | rfl | cases hfailing
    rw [State.sound_after ((congrFun hmoves.body run).trans hbody) hstage, houtcome, hexecutions]
    cases hbefore : (state.pool.phase actor).stage with
    | before =>
      rw [State.executionsOnFailure_of_stage (by simp [hbefore])]
      exact .of_allFailed ((State.sound_before hbody hbefore).mp hsound)
    | executing =>
      obtain ⟨pool, worker, hphase⟩ := WarmPool.executing_of_stage hbefore
      have hearlier := (State.sound_executing hbody hbefore).mp hsound
      simp only [State.executionsOnFailure, hpurpose, hphase]
      rw [State.conclude_self]
      have hended : (state.endOf worker failure).FailedByItself ∨
          failure = .cancelled ∧ state.endOf worker failure = .cancelled ∨
          state.endOf worker failure = .stopped ∧ epoch < next.pool.cancellations () := by
        rcases state.endOf_cases worker failure with hfailed | hcancelled | ⟨hended, hstopped⟩
        · rw [hfailed]
          exact Or.inl trivial
        · exact Or.inr (Or.inl hcancelled)
        · have hstop := cancelled_of_stopped hpool hright hbody hphase hstopped
          exact Or.inr (Or.inr ⟨hended, hstop.trans_le hraised⟩)
      apply Concluded.conclude hearlier
      · exact hended.imp_right fun hother =>
          Or.inr (hother.imp_left And.right)
      · intro hworker
        cases hworker
        rcases hended with hfailed | ⟨hcancelled, -⟩ | ⟨-, hstopped⟩
        · exact Or.inl hfailed
        · cases hcancelled
        · exact Or.inr hstopped
      · intro returncode conflict hreturned
        cases hreturned
    | after =>
      rw [State.executionsOnFailure_of_stage (by simp [hbefore])]
      have hconcluded := (State.sound_after hbody hbefore).mp hsound
      refine (hconcluded.raise ?_).mono fun hstopped => hstopped.trans_le hraised
      rintro rfl
      have hmay := horderly actor hfailing
      simp only [State.MayFail, hpurpose, hbefore, reduceCtorEq, false_or] at hmay
      exact hmay
  · apply hsound.others hmoves
    intro attempt task epoch hbody hsame
    cases hactor.symm.trans hsame
    exact hown ⟨attempt, epoch, hbody⟩

end

/-! ## The invariant -/

structure Right (project : Project ρ α) (state : State ρ α) : Prop where
  pool : PoolRight project state
  run : RunRight project state
  sound : ∀ run, state.Sound run

section

variable [DecidableEq ρ]

theorem Right.setBody {body : Body α} {executions : ρ → List Execution}
    (hright : Right project state)
    (hbusy : body.Busy → project.IsRun run ∧ state.lock.phase run = .inside)
    (hworker : ∀ attempt task epoch, body = .inWorker attempt task epoch →
      project.purpose task = .attempt run ∧ epoch = state.pool.cancellations () ∧
        state.pool.phase task = .idle)
    (hothers : ∀ other, other ≠ run → executions other = state.executions other)
    (hself : State.Sound { state with
      body := Function.update state.body run body, executions := executions } run) :
    Right project { state with
      body := Function.update state.body run body, executions := executions } := by
  refine ⟨{ hright.pool with }, hright.run.setBody hbusy hworker, ?_⟩
  intro other
  by_cases hother : other = run
  · subst other
    exact hself
  · exact (hright.sound other).frame (Function.update_of_ne hother _ _) (hothers other hother)
      (fun _ _ _ _ => ⟨rfl, rfl⟩) le_rfl

theorem Right.settle {attempt : ℕ} {returncode : ℤ} {conflict : Bool} {executions : ρ → List Execution}
    (hright : Right project state)
    (hothers : ∀ other, other ≠ run → executions other = state.executions other)
    (hearlier : AllFailed (executions run).dropLast)
    (hfailed : returncode ≠ 0 → AllFailed (executions run)) :
    Right project { state with
      body := Function.update state.body run (.settle attempt returncode conflict)
      executions := executions } := by
  apply hright.setBody _ _ hothers
  · exact State.sound_of_settle (Function.update_self ..) hearlier hfailed
  · intro hbusy
    unfold Body.settle at hbusy
    split at hbusy <;> exact False.elim hbusy
  · intro other task epoch hworker
    unfold Body.settle at hworker
    split at hworker <;> cases hworker

theorem Right.finish {executions : ρ → List Execution} (hright : Right project state)
    (hothers : ∀ other, other ≠ run → executions other = state.executions other)
    (hearlier : AllFailed (executions run).dropLast) :
    Right project { state with
      body := Function.update state.body run .ended, executions := executions } := by
  apply hright.setBody _ _ hothers
  · exact State.sound_of_earlier (Or.inl (Function.update_self ..)) hearlier
  · exact fun hbusy => False.elim hbusy
  · exact fun _ _ _ hworker => by cases hworker

theorem Right.subprocess {attempt : ℕ} (hright : Right project state)
    (hinside : project.IsRun run ∧ state.lock.phase run = .inside)
    (hfailed : AllFailed (state.executions run)) :
    Right project { state with
      body := Function.update state.body run (.inSubprocess attempt)
      executions := state.launch run } := by
  have hearlier : AllFailed (state.launch run run).dropLast := by
    rw [State.launch_self, List.dropLast_concat]
    exact hfailed
  apply hright.setBody
  · exact fun _ => hinside
  · exact fun _ _ _ hworker => by cases hworker
  · exact fun _ hother => State.launch_of_ne hother
  · exact State.sound_of_earlier (Or.inr ⟨attempt, Function.update_self ..⟩) hearlier

omit [DecidableEq ρ] in
theorem Right.frame (hright : Right project state) (hrun : RunRight project next)
    (hpool : next.pool = state.pool) (hstopped : next.stopped = state.stopped)
    (hbody : next.body = state.body) (houtcome : next.outcome = state.outcome)
    (hexecutions : next.executions = state.executions) : Right project next := by
  refine ⟨?_, hrun, ?_⟩
  · obtain ⟨hapart, hunswept, hmade, hreleasing, hgone⟩ := hright.pool
    rw [← hpool] at hapart hunswept hmade hreleasing hgone
    rw [← hstopped] at hgone
    exact ⟨hapart, hunswept, hmade, hreleasing, hgone⟩
  · intro run
    apply (hright.sound run).frame (congrFun hbody run) (congrFun hexecutions run)
    · intro attempt task epoch _
      exact ⟨by rw [hpool], congrFun houtcome task⟩
    · rw [hpool]

variable [DecidableEq α]

theorem right_init : Right project (machine project).init where
  pool := {
    apart := WarmPool.apart_init
    unswept := fun _ _ _ _ hphase => by cases hphase
    made := fun _ hregistered => by
      obtain ⟨_, hget⟩ := hregistered
      cases hget
    releasing := fun _ _ _ hphase => by cases hphase
    stopped := fun _ hworker => by cases hworker }
  run := {
    exclusive := fun _ _ _ hinside => by cases hinside
    inside := fun _ hbusy => False.elim hbusy
    own := fun _ _ _ _ hbody => by cases hbody
    epoch := fun _ _ _ _ hbody => by cases hbody }
  sound _ _ hexecution := by cases hexecution

theorem right_step (hright : Right project state) (horderly : Orderly project state event)
    (hstep : step project state event = some next) : Right project next := by
  cases event with
  | lock event =>
    simp only [step] at hstep
    split at hstep
    next hadmits =>
      obtain ⟨lock, hlock, rfl⟩ := Option.map_eq_some_iff.mp hstep
      exact hright.frame (hright.run.lock horderly hadmits hlock) rfl rfl rfl rfl rfl
    · cases hstep
  | regenerate request rewrites =>
    simp only [step] at hstep
    split at hstep <;> cases hstep
    refine hright.frame (hright.run.setRegeneration ?_) rfl rfl rfl rfl rfl
    intro hrewrites
    cases hrewrites
    exact horderly
  | write request =>
    simp only [step] at hstep
    split at hstep <;> cases hstep
    exact hright.frame (hright.run.setRegeneration (fun hrewrites => by cases hrewrites))
      rfl rfl rfl rfl rfl
  | skip request =>
    simp only [step] at hstep
    split at hstep <;> cases hstep
    exact hright.frame (hright.run.setRegeneration (fun hrewrites => by cases hrewrites))
      rfl rfl rfl rfl rfl
  | pool event =>
    obtain ⟨hmoves, -, -, -, hstopped⟩ := poolMoves_of_pool hstep
    refine ⟨hright.pool.step hmoves.step rfl ?_, hright.run.moves hmoves,
      fun run => (hright.sound run).pool hright.pool hright.run hstep⟩
    rw [hstopped]
    exact hright.pool.stoppedAfter
  | complete task returncode conflict =>
    obtain ⟨hmoves, -, -, hstopped⟩ := poolMoves_of_complete hstep
    refine ⟨hright.pool.step hmoves.step rfl ?_, hright.run.moves hmoves,
      fun run => (hright.sound run).complete hright.pool hright.run hstep⟩
    rw [hstopped]
    exact fun worker hworker => Or.inl hworker
  | fail event failure =>
    obtain ⟨hmoves, -, -, -, -, hstopped⟩ := poolMoves_of_fail hstep
    refine ⟨hright.pool.step hmoves.step rfl ?_, hright.run.moves hmoves,
      fun run => (hright.sound run).fail hright.pool hright.run horderly hstep⟩
    rw [hstopped]
    exact fun worker hworker => Or.inl hworker
  | attempt run task =>
    simp only [step] at hstep
    split at hstep
    next attempt hbody =>
      split at hstep <;> cases hstep
      next hguard =>
        obtain ⟨hcaller, hinside, hpurpose, hidle⟩ := hguard
        apply hright.setBody
        · exact fun _ => ⟨Or.inl hcaller, hinside⟩
        · intro other current epoch hworker
          cases hworker
          exact ⟨hpurpose, rfl, hidle⟩
        · exact fun _ _ => rfl
        · rw [State.sound_before (Function.update_self ..) (by rw [hidle]; rfl)]
          have hsound := hright.sound run
          simp only [State.Sound, hbody] at hsound
          exact hsound
    · cases hstep
  | resume run task =>
    simp only [step] at hstep
    split at hstep
    next attempt current epoch outcome hbody houtcome =>
      split at hstep
      next hguard =>
        obtain ⟨rfl, hfinished⟩ := hguard
        have hconcluded := (State.sound_after hbody (by rw [hfinished]; rfl)).mp
          (hright.sound run)
        have hbusy := hright.run.inside run (by rw [hbody]; trivial)
        split at hstep
        next returncode conflict =>
          cases hstep
          exact hright.settle (fun _ _ => rfl) hconcluded.earlier
            (hconcluded.returned returncode conflict houtcome)
        · split at hstep <;> cases hstep
          · exact hright.finish (fun _ _ => rfl) hconcluded.earlier
          next hsame =>
            -- The epoch has not moved, so no user stopped the worker.
            rcases hconcluded.raised houtcome with hfailed | hstopped
            · exact hright.subprocess hbusy hfailed
            · exact absurd hstopped.ne' hsame
        · cases hstep
          exact hright.finish (fun _ _ => rfl) hconcluded.earlier
      · cases hstep
    · cases hstep
  | stream run =>
    simp only [step] at hstep
    split at hstep <;> cases hstep
    next hguard =>
      obtain ⟨hbody, hcaller, hinside⟩ := hguard
      have hsound := hright.sound run
      simp only [State.Sound, hbody] at hsound
      exact hright.subprocess ⟨Or.inr hcaller, hinside⟩ hsound
  | subprocessExit run returncode conflict =>
    simp only [step] at hstep
    split at hstep <;> cases hstep
    next attempt hbody =>
      have hsound := hright.sound run
      simp only [State.Sound, hbody] at hsound
      have hothers : ∀ other, other ≠ run →
          state.conclude run (.returned returncode) other = state.executions other :=
        fun _ hother => State.conclude_of_ne hother
      have hearlier : AllFailed (state.conclude run (.returned returncode) run).dropLast := by
        rw [State.conclude_self, List.dropLast_concat]
        exact hsound
      split
      · exact hright.finish hothers hearlier
      · apply hright.settle hothers hearlier
        intro hfailed
        rw [State.conclude_self]
        exact hsound.append hfailed
  | abort run =>
    simp only [step] at hstep
    split at hstep <;> cases hstep
    next hbody => exact hright.finish (fun _ _ => rfl) (hright.sound run).once

/-- What a run may rely on: while it is in the lock, no request rewrites its profile,
and its worker ends by itself, by the run's own call or by the user's Stop; and its
command is executed again only after it failed by itself. -/
structure Undisturbed (project : Project ρ α) (allowed : State ρ α → Event ρ α → Prop)
    (state : State ρ α) : Prop where
  profile : ∀ run event next, project.IsRun run → state.lock.phase run = .inside →
    allowed state event → step project state event = some next → next.profile = state.profile
  worker : ∀ run attempt task epoch pool worker event next,
    state.body run = .inWorker attempt task epoch →
    state.pool.phase task = .executing pool worker → worker ∈ state.pool.live →
    allowed state event → step project state event = some next →
    worker ∈ next.pool.live ∨ event = .pool (.exit worker) ∨
      ∃ other, project.purpose other = .stop ∧ event = .pool (.stopWorker other)
  once : ∀ run, AllFailed (state.executions run).dropLast

/-- The profile stays while a run is in the lock. -/
theorem RunRight.profile_of_step (hright : RunRight project state) (hrun : project.IsRun run)
    (hinside : state.lock.phase run = .inside) (hstep : step project state event = some next) :
    next.profile = state.profile := by
  cases event with
  | write request =>
    simp only [step] at hstep
    split at hstep
    next hregenerating =>
      exact absurd hregenerating (hright.exclusive run request hrun hinside)
    · cases hstep
  | pool event => exact (poolMoves_of_pool hstep).1.profile
  | complete task returncode conflict => exact (poolMoves_of_complete hstep).1.profile
  | fail event failure => exact (poolMoves_of_fail hstep).1.profile
  | lock event =>
    simp only [step] at hstep
    split at hstep
    · obtain ⟨lock, -, rfl⟩ := Option.map_eq_some_iff.mp hstep
      rfl
    · cases hstep
  | regenerate _ _ | skip _ | attempt _ _ | resume _ _ | stream _ | subprocessExit _ _ _
  | abort _ =>
    simp only [step] at hstep
    repeat' split at hstep
    all_goals cases hstep
    all_goals rfl

omit [DecidableEq ρ] in
/-- The process of a worker that executes a run's command ends by itself or by the
user's Stop. -/
theorem Right.live_of_moves {attempt epoch pool : ℕ} {worker : WarmPool.Worker}
    {event : WarmPool.Event Unit α} (hright : Right project state)
    (hbody : state.body run = .inWorker attempt task epoch)
    (hphase : state.pool.phase task = .executing pool worker) (hlive : worker ∈ state.pool.live)
    (hmoves : PoolMoves project state next event) :
    worker ∈ next.pool.live ∨ event = .exit worker ∨
      ∃ other, project.purpose other = .stop ∧ event = .stopWorker other := by
  obtain ⟨hrun, hinside⟩ := hright.run.inside run (by rw [hbody]; trivial)
  rcases WarmPool.live_of_step hmoves.step hlive with
    hkept | hexit | ⟨actor, rfl, hhand, hafter⟩ | ⟨actor, dropped, rfl, hstops, -⟩
  · exact Or.inl hkept
  · exact Or.inr (Or.inl hexit)
  · -- Only the run that holds a worker stops it as its own.
    have hsame := hright.pool.apart.exclusive actor task worker hhand (by rw [hphase]; rfl)
    rw [hsame, hphase] at hafter
    cases hafter
  · cases hstopping : state.pool.phase actor with
    | reclaiming _ _ _ => exact absurd hstopping (hright.pool.unswept actor _ _ _)
    | releasing _ _ =>
      obtain ⟨cancel, hjob⟩ := (hright.pool.releasing actor _ _ hstopping).1
      have hstop := hright.run.stop_of_release hrun hinside (hmoves.called actor rfl) hjob
      exact Or.inr (Or.inr ⟨actor, hstop.1, rfl⟩)
    | _ =>
      rw [hstopping] at hstops
      cases hstops

theorem pool_of_step (hstep : step project state event = some next) :
    next.pool = state.pool ∨ ∃ moved, PoolMoves project state next moved ∧
      (event = .pool moved ∨ silent moved = false) := by
  cases event with
  | pool moved => exact Or.inr ⟨moved, (poolMoves_of_pool hstep).1, Or.inl rfl⟩
  | complete task returncode conflict =>
    exact Or.inr ⟨.complete task, (poolMoves_of_complete hstep).1, Or.inr rfl⟩
  | fail moved failure =>
    obtain ⟨hmoves, task, hfailing, -⟩ := poolMoves_of_fail hstep
    refine Or.inr ⟨moved, hmoves, Or.inr ?_⟩
    cases moved <;> first | rfl | cases hfailing
  | lock event =>
    simp only [step] at hstep
    split at hstep
    · obtain ⟨lock, -, rfl⟩ := Option.map_eq_some_iff.mp hstep
      exact Or.inl rfl
    · cases hstep
  | regenerate _ _ | write _ | skip _ | attempt _ _ | resume _ _ | stream _
  | subprocessExit _ _ _ | abort _ =>
    simp only [step] at hstep
    repeat' split at hstep
    all_goals cases hstep
    all_goals exact Or.inl rfl

/-- Runs are executed once and undisturbed along every run of orderly steps. -/
theorem undisturbed_of_orderly_steps
    (hpath : (machine project).Path (Orderly project) events state) :
    Undisturbed project (Orderly project) state := by
  have hright : Right project state :=
    hpath.invariant right_init fun hsource horderly hstep => right_step hsource horderly hstep
  constructor
  · intro run event next hrun hinside _ hstep
    exact hright.run.profile_of_step hrun hinside hstep
  · intro run attempt task epoch pool worker event next hbody hphase hlive _ hstep
    rcases pool_of_step hstep with hsame | ⟨moved, hmoves, hevent⟩
    · rw [hsame]
      exact Or.inl hlive
    · rcases hright.live_of_moves hbody hphase hlive hmoves with hkept | rfl | ⟨other, hstop, rfl⟩
      · exact Or.inl hkept
      · rcases hevent with rfl | hloud
        · exact Or.inr (Or.inl rfl)
        · cases hloud
      · rcases hevent with rfl | hloud
        · exact Or.inr (Or.inr ⟨other, hstop, rfl⟩)
        · cases hloud
  · exact fun run => (hright.sound run).once

/-- A run, with a second attempt, and a compile of the same project. -/
def runAndCompile : Project (Fin 2) (Fin 3) where
  settings := {}
  caller
    | 0 => .runCommand
    | 1 => .compileModel
  purpose
    | 0 | 1 => .attempt 0
    | 2 => .regeneration 1

/-- A compile that comes before the run, and a conflict over the warehouse. -/
theorem undisturbed_of_compile_before_run :
    ∃ events state, (machine runAndCompile).Path (Orderly runAndCompile) events state ∧
      state.body 0 = .ended ∧ state.executions 0 = [.returned 1, .returned 0] ∧
      state.profile = some 0 ∧ Undisturbed runAndCompile (Orderly runAndCompile) state := by
  obtain ⟨state, hrun, hbody, hexecutions, hprofile⟩ :
      ∃ state, (machine runAndCompile).runUnder (Orderly runAndCompile)
        (machine runAndCompile).init
        [.regenerate 1 true, .pool (.release 2), .write 1,
          .regenerate 0 true, .write 0, .lock (.enter 0), .lock (.attempt 0),
          .attempt 0 0, .pool (.acquire 0), .pool (.choose 0), .pool (.beginStart 0),
          .pool (.spawn 0), .pool (.ready 0), .pool (.take 0), .pool (.submit 0),
          .complete 0 1 true, .resume 0 0,
          .attempt 0 1, .pool (.acquire 1), .pool (.sweep 1), .pool (.choose 1),
          .pool (.beginStart 1), .pool (.take 1), .pool (.submit 1), .complete 1 0 false,
          .resume 0 1] = some state ∧
        state.body 0 = .ended ∧ state.executions 0 = [.returned 1, .returned 0] ∧
        state.profile = some 0 := ⟨_, rfl, rfl, rfl, rfl⟩
  have hpath := Machine.path_of_runUnder hrun
  exact ⟨_, state, hpath, hbody, hexecutions, hprofile, undisturbed_of_orderly_steps hpath⟩

/-- A compile that comes under the run stops its worker, and the command runs twice. -/
theorem not_undisturbed_of_compile_under_run :
    ¬ ∀ (project : Project (Fin 2) (Fin 3)) events state,
      (machine project).Path Machine.anyStep events state →
        Undisturbed project Machine.anyStep state := by
  intro hclaim
  obtain ⟨state, hrun, hexecutions⟩ :
      ∃ state, (machine runAndCompile).runFrom (machine runAndCompile).init
        [.regenerate 0 true, .write 0, .lock (.enter 0), .lock (.attempt 0),
          .attempt 0 0, .pool (.acquire 0), .pool (.choose 0), .pool (.beginStart 0),
          .pool (.spawn 0), .pool (.ready 0), .pool (.take 0), .pool (.submit 0),
          .regenerate 1 true, .pool (.release 2), .pool (.stopWorker 2), .pool (.stopped 2),
          .write 1, .fail (.interrupt 0) .worker, .pool (.stopOwn 0), .pool (.stopOwn 0),
          .pool (.spawn 0), .pool (.ready 0), .resume 0 0] = some state ∧
        state.executions 0 = [.stopped, .running] := ⟨_, rfl, rfl⟩
  have honce := (hclaim _ _ _ (Machine.path_of_runFrom hrun)).once 0
  rw [hexecutions] at honce
  exact honce .stopped (by simp)

end

end DbtCraft.Services.RunExecution

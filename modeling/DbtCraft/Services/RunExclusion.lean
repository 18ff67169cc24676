/-
# A run has the profile and the pool for itself

A request that regenerates the profile while a run holds the lock stops the
worker under the run. Runs are left alone as long as no request that rewrites the
profile regenerates it while a run is inside the lock, and none is inside its
regeneration when a run enters. What each step of a project does to its pool and
its other requests is read off here once.
-/

import DbtCraft.Core.LockExclusion
import DbtCraft.Services.PoolExclusion
import DbtCraft.Services.PoolSteps
import DbtCraft.Services.RunExecution

namespace DbtCraft.Services.RunExecution

open DbtCraft.Math DbtCraft.Core

universe uρ uα

variable {ρ : Type uρ} {α : Type uα} {project : Project ρ α} {state next : State ρ α}
  {event : Event ρ α} {events : List (Event ρ α)} {run : ρ} {task : α}

/-- The execution failed without another request's doing. -/
def Execution.FailedByItself : Execution → Prop
  | .returned returncode => returncode ≠ 0
  | .failed => True
  | .running | .stopped | .cancelled => False

/-- A call of `worker_pool.run` does not raise a worker's error, from the recycling
of the worker, after its command succeeded or was cancelled. -/
def State.MayFail (project : Project ρ α) (state : State ρ α) (task : α) : Prop :=
  match project.purpose task with
  | .attempt run =>
    (state.pool.phase task).stage = .executing ∨
      ∀ last ∈ (state.executions run).getLast?, last ≠ .returned 0 ∧ last ≠ .cancelled
  | _ => True

/-- No request rewrites the profile beside a run in the lock, and no call fails
after its command did not. -/
def Orderly (project : Project ρ α) (state : State ρ α) (event : Event ρ α) : Prop :=
  match event with
  | .regenerate _ true => ∀ run, project.IsRun run → state.lock.phase run ≠ .inside
  | .lock (.attempt run) =>
    project.IsRun run → state.lock.keys.get .dbtRun = none →
      ∀ request, state.regeneration request ≠ .regenerating true
  | .fail event .worker => ∀ task ∈ failing event, state.MayFail project task
  | _ => True

deriving instance DecidableEq for WarmPool.Stage

instance (project : Project ρ α) (state : State ρ α) (task : α) :
    Decidable (state.MayFail project task) :=
  match hpurpose : project.purpose task with
  | .attempt run =>
    decidable_of_iff ((state.pool.phase task).stage = .executing ∨
      ∀ last ∈ (state.executions run).getLast?, last ≠ .returned 0 ∧ last ≠ .cancelled)
      (by simp only [State.MayFail, hpurpose])
  | .command | .regeneration _ | .stop =>
    decidable_of_iff True (by simp only [State.MayFail, hpurpose])

instance [Fintype ρ] (project : Project ρ α) (state : State ρ α) :
    (event : Event ρ α) → Decidable (Orderly project state event)
  | .regenerate _ true =>
    inferInstanceAs (Decidable (∀ run, project.IsRun run → state.lock.phase run ≠ .inside))
  | .lock (.attempt run) =>
    inferInstanceAs (Decidable (project.IsRun run → state.lock.keys.get .dbtRun = none →
      ∀ request, state.regeneration request ≠ .regenerating true))
  | .fail event .worker =>
    inferInstanceAs (Decidable (∀ task ∈ failing event, state.MayFail project task))
  | .lock (.enter _) | .lock (.cancelEntering _) | .lock (.renew _) | .lock (.leave _ _)
  | .lock (.release _) | .lock (.cancelWaiting _ _) | .lock (.cancelRelease _ _)
  | .lock (.unwind _) | .lock (.cancelUnwinding _) | .lock (.forceRelease _)
  | .lock (.cancelHandler _) | .lock (.cancelRun _) | .lock (.cancelProcess _)
  | .lock (.scanStale _ _) | .lock (.deleteStale _ _) | .lock .tick
  | .regenerate _ false | .fail _ .cancelled | .fail _ .other
  | .write _ | .skip _ | .pool _ | .complete _ _ _ | .attempt _ _ | .resume _ _ | .stream _
  | .subprocessExit _ _ _ | .abort _ => isTrue trivial

/-! ## The pool of the project -/

/-- The sweeps spare the project of the run that makes them. -/
theorem not_candidate {entry : Unit × ℕ} :
    ¬ state.pool.Candidate project.pools task entry :=
  fun hcandidate => hcandidate.1 rfl

/-- What a dropped pool and its workers are. -/
structure PoolRight (project : Project ρ α) (state : State ρ α) : Prop where
  apart : state.pool.Apart state.pool.workersMade
  unswept : ∀ task pool index rest, state.pool.phase task ≠ .reclaiming pool index rest
  made : ∀ pool, state.pool.Registered pool → pool < state.pool.poolsMade
  releasing : ∀ task pool index, state.pool.phase task = .releasing pool index →
    (∃ cancel, project.pools.job task = .release () cancel) ∧
      pool < state.pool.poolsMade ∧ ¬ state.pool.Registered pool
  stopped : ∀ worker ∈ state.stopped,
    worker.pool < state.pool.poolsMade ∧ ¬ state.pool.Registered worker.pool

section

variable [DecidableEq α]

/-- A dropped pool stays dropped. -/
theorem dropped_of_step {event : WarmPool.Event Unit α} {before after : WarmPool.State Unit α}
    {pool : ℕ} (hstep : WarmPool.step project.pools before event = some after)
    (hmade : pool < before.poolsMade) (hdropped : ¬ before.Registered pool) :
    pool < after.poolsMade ∧ ¬ after.Registered pool := by
  refine ⟨lt_of_lt_of_le hmade (WarmPool.counters_of_step hstep).1, ?_⟩
  rintro ⟨owner, hget⟩
  rcases WarmPool.get_of_get_step hstep hget with hbefore | ⟨rfl, -⟩
  · exact hdropped ⟨owner, hbefore⟩
  · exact lt_irrefl _ hmade

theorem PoolRight.step {event : WarmPool.Event Unit α} {pool : WarmPool.State Unit α}
    (hright : PoolRight project state)
    (hstep : WarmPool.step project.pools state.pool event = some pool)
    (hpool : next.pool = pool)
    (hstopped : ∀ worker ∈ next.stopped, worker ∈ state.stopped ∨
      worker.pool < state.pool.poolsMade ∧ ¬ state.pool.Registered worker.pool) :
    PoolRight project next := by
  subst hpool
  constructor
  · exact WarmPool.apart_step hright.apart hstep
  · intro task dropped index rest hreclaiming
    rcases WarmPool.reclaiming_of_step hstep hreclaiming with
      ⟨earlier, hbefore⟩ | ⟨actor, entry, hcandidate⟩
    · exact hright.unswept task dropped earlier rest hbefore
    · exact not_candidate hcandidate
  · rintro registered ⟨owner, hget⟩
    have hcounters := (WarmPool.counters_of_step hstep).1
    rcases WarmPool.get_of_get_step hstep hget with hbefore | ⟨rfl, hmade⟩
    · exact lt_of_lt_of_le (hright.made registered ⟨owner, hbefore⟩) hcounters
    · omega
  · intro task dropped index hreleasing
    rcases WarmPool.releasing_of_step hstep hreleasing with
      ⟨earlier, hbefore⟩ | ⟨owner, cancel, hjob, hget, hpopped⟩
    · obtain ⟨hjob, hmade, hgone⟩ := hright.releasing task dropped earlier hbefore
      exact ⟨hjob, dropped_of_step hstep hmade hgone⟩
    · refine ⟨⟨cancel, hjob⟩, ?_, ?_⟩
      · exact lt_of_lt_of_le (hright.made dropped ⟨owner, hget⟩)
          (WarmPool.counters_of_step hstep).1
      · rintro ⟨other, hother⟩
        cases hpopped.symm.trans hother
  · intro worker hworker
    rcases hstopped worker hworker with hbefore | hgone
    · obtain ⟨hmade, hgone⟩ := hright.stopped worker hbefore
      exact dropped_of_step hstep hmade hgone
    · exact dropped_of_step hstep hgone.1 hgone.2

omit [DecidableEq α] in
/-- What `release_project` stops is in a dropped pool. -/
theorem PoolRight.stoppedAfter {event : WarmPool.Event Unit α} (hright : PoolRight project state) :
    ∀ worker ∈ state.stoppedAfter event, worker ∈ state.stopped ∨
      worker.pool < state.pool.poolsMade ∧ ¬ state.pool.Registered worker.pool := by
  intro worker hworker
  unfold State.stoppedAfter at hworker
  split at hworker
  next stopped hstopping =>
    split at hworker
    · rcases Finset.mem_insert.mp hworker with rfl | hbefore
      · unfold State.stopping at hstopping
        split at hstopping
        · split at hstopping
          next task _ pool index hphase =>
            have hown := hright.apart.listed pool worker (List.mem_of_getElem? hstopping)
            rw [hown]
            exact Or.inr (hright.releasing task pool index hphase).2
          · cases hstopping
        · cases hstopping
      · exact Or.inl hbefore
    · exact Or.inl hworker
  · split at hworker
    · exact Or.inl (Finset.mem_of_mem_erase hworker)
    · exact Or.inl hworker

end

/-! ## Steps of the pool -/

/-- What an event on the pool does to the rest of the project. -/
structure PoolMoves [DecidableEq α] (project : Project ρ α) (state next : State ρ α)
    (event : WarmPool.Event Unit α) : Prop where
  step : WarmPool.step project.pools state.pool event = some next.pool
  called : ∀ task, event.actor = some task → state.Called project task
  lock : next.lock = state.lock
  regeneration : next.regeneration = state.regeneration
  profile : next.profile = state.profile
  body : next.body = state.body
  outcome : ∀ task, event.actor ≠ some task → next.outcome task = state.outcome task
  executions : ∀ run, (∀ task, event.actor = some task → project.purpose task ≠ .attempt run) →
    next.executions run = state.executions run

/-- The task of an exception acts. -/
theorem actor_of_failing {event : WarmPool.Event Unit α} (hfailing : failing event = some task) :
    event.actor = some task := by
  cases event <;> first | exact hfailing | cases hfailing

section

variable [DecidableEq ρ]

theorem State.launch_of_ne {other : ρ} (hother : run ≠ other) :
    state.launch other run = state.executions run :=
  Function.update_of_ne hother _ _

theorem State.conclude_of_ne {ended : Execution} {other : ρ} (hother : run ≠ other) :
    state.conclude other ended run = state.executions run :=
  Function.update_of_ne hother _ _

theorem State.executionsAfter_of_other {event : WarmPool.Event Unit α}
    (hother : ∀ task, event.actor = some task → project.purpose task ≠ .attempt run) :
    state.executionsAfter project event run = state.executions run := by
  cases event with
  | submit task =>
    simp only [State.executionsAfter]
    cases hpurpose : project.purpose task with
    | attempt other =>
      apply State.launch_of_ne
      rintro rfl
      exact hother task rfl hpurpose
    | command | regeneration _ | stop => rfl
  | _ => rfl

theorem State.executionsOnFailure_of_other {failure : Failure}
    (hother : project.purpose task ≠ .attempt run) :
    state.executionsOnFailure project task failure run = state.executions run := by
  simp only [State.executionsOnFailure]
  cases hpurpose : project.purpose task with
  | attempt other =>
    cases state.pool.phase task with
    | executing _ worker =>
      apply State.conclude_of_ne
      rintro rfl
      exact hother hpurpose
    | _ => rfl
  | command | regeneration _ | stop => rfl

theorem State.executionsOnFailure_of_stage {failure : Failure}
    (hstage : (state.pool.phase task).stage ≠ .executing) :
    state.executionsOnFailure project task failure = state.executions := by
  unfold State.executionsOnFailure
  split
  next hphase =>
    rw [hphase] at hstage
    exact absurd rfl hstage
  · rfl

variable [DecidableEq α]

theorem poolMoves_of_pool {event : WarmPool.Event Unit α}
    (hstep : step project state (.pool event) = some next) :
    PoolMoves project state next event ∧ silent event ∧
      next.executions = state.executionsAfter project event ∧ next.outcome = state.outcome ∧
      next.stopped = state.stoppedAfter event := by
  simp only [step] at hstep
  split at hstep
  next hcalled =>
    obtain ⟨pool, hpool, rfl⟩ := Option.map_eq_some_iff.mp hstep
    refine ⟨⟨hpool, hcalled.2, rfl, rfl, rfl, rfl, fun _ _ => rfl, ?_⟩, hcalled.1, rfl, rfl, rfl⟩
    intro run hother
    exact State.executionsAfter_of_other hother
  · cases hstep

theorem poolMoves_of_complete {returncode : ℤ} {conflict : Bool}
    (hstep : step project state (.complete task returncode conflict) = some next) :
    PoolMoves project state next (.complete task) ∧
      next.outcome task = some (.returned returncode conflict) ∧
      (∀ run, project.purpose task = .attempt run →
        next.executions = state.conclude run (.returned returncode)) ∧
      next.stopped = state.stopped := by
  simp only [step] at hstep
  split at hstep
  next hcalled =>
    obtain ⟨pool, hpool, rfl⟩ := Option.map_eq_some_iff.mp hstep
    refine ⟨⟨hpool, ?_, rfl, rfl, rfl, rfl, ?_, ?_⟩, Function.update_self .., ?_, rfl⟩
    · intro actor hactor
      cases hactor
      exact hcalled
    · intro other hother
      apply Function.update_of_ne
      rintro rfl
      exact hother rfl
    · intro run hother
      cases hpurpose : project.purpose task with
      | attempt other =>
        apply State.conclude_of_ne
        rintro rfl
        exact hother task rfl hpurpose
      | command | regeneration _ | stop => rfl
    · intro run hpurpose
      simp only [hpurpose]
  · cases hstep

theorem poolMoves_of_fail {event : WarmPool.Event Unit α} {failure : Failure}
    (hstep : step project state (.fail event failure) = some next) :
    PoolMoves project state next event ∧ ∃ task, failing event = some task ∧
      next.outcome task = some (.raised failure) ∧
      next.executions = state.executionsOnFailure project task failure ∧
      next.stopped = state.stopped := by
  simp only [step] at hstep
  split at hstep
  next task hfailing =>
    split at hstep
    next hcalled =>
      have hactor := actor_of_failing hfailing
      obtain ⟨pool, hpool, rfl⟩ := Option.map_eq_some_iff.mp hstep
      refine ⟨⟨hpool, ?_, rfl, rfl, rfl, rfl, ?_, ?_⟩, task, hfailing,
        Function.update_self .., rfl, rfl⟩
      · intro actor hsame
        cases hactor.symm.trans hsame
        exact hcalled
      · intro other hother
        apply Function.update_of_ne
        rintro rfl
        exact hother hactor
      · exact fun run hother => State.executionsOnFailure_of_other (hother task hactor)
    · cases hstep
  · cases hstep

end

/-! ## Other requests keep off -/

/-- A run is executing its command. -/
def Body.Busy : Body α → Prop
  | .inWorker _ _ _ | .inSubprocess _ => True
  | .ready _ | .ended => False

/-- A run in the lock has the profile and the pool for itself, unless the user
stopped it. -/
structure RunRight (project : Project ρ α) (state : State ρ α) : Prop where
  exclusive : ∀ run request, project.IsRun run → state.lock.phase run = .inside →
    state.regeneration request ≠ .regenerating true
  inside : ∀ run, (state.body run).Busy → project.IsRun run ∧ state.lock.phase run = .inside
  own : ∀ run attempt task epoch, state.body run = .inWorker attempt task epoch →
    project.purpose task = .attempt run
  epoch : ∀ run attempt task epoch, state.body run = .inWorker attempt task epoch →
    epoch ≤ state.pool.cancellations () ∧ ∀ pool, (state.pool.phase task).user = some pool →
      state.pool.Registered pool ∨ epoch < state.pool.cancellations ()

theorem resource_of_isRun (hrun : project.IsRun run) :
    (project.caller run).resource = .dbtRun := by
  rcases hrun with hcaller | hcaller
  · rw [hcaller]
    rfl
  · rw [hcaller]
    rfl

/-- Beside a run in the lock, only a user's Stop releases the workers. -/
theorem RunRight.stop_of_release {actor : α} {cancel : Bool} (hright : RunRight project state)
    (hrun : project.IsRun run) (hinside : state.lock.phase run = .inside)
    (hcalled : state.Called project actor)
    (hjob : project.pools.job actor = .release () cancel) :
    project.purpose actor = .stop ∧ cancel = true := by
  simp only [Project.pools] at hjob
  unfold State.Called at hcalled
  cases hpurpose : project.purpose actor with
  | attempt _ | command =>
    rw [hpurpose] at hjob
    cases hjob
  | regeneration request =>
    rw [hpurpose] at hcalled
    exact absurd hcalled (hright.exclusive run request hrun hinside)
  | stop =>
    rw [hpurpose] at hjob
    cases hjob
    exact ⟨rfl, rfl⟩

section

variable [DecidableEq ρ]

theorem RunRight.setBody {body : Body α} {executions : ρ → List Execution}
    (hright : RunRight project state)
    (hbusy : body.Busy → project.IsRun run ∧ state.lock.phase run = .inside)
    (hworker : ∀ attempt task epoch, body = .inWorker attempt task epoch →
      project.purpose task = .attempt run ∧ epoch = state.pool.cancellations () ∧
        state.pool.phase task = .idle) :
    RunRight project { state with
      body := Function.update state.body run body, executions := executions } := by
  refine { hright with inside := ?_, own := ?_, epoch := ?_ }
  · intro other
    by_cases hother : other = run
    · subst other
      simpa using hbusy
    · simpa [hother] using hright.inside other
  · intro other attempt task epoch hbody
    by_cases hother : other = run
    · subst other
      exact (hworker attempt task epoch (by simpa using hbody)).1
    · exact hright.own other attempt task epoch (by simpa [hother] using hbody)
  · intro other attempt task epoch hbody
    by_cases hother : other = run
    · subst other
      obtain ⟨-, rfl, hidle⟩ := hworker attempt task epoch (by simpa using hbody)
      refine ⟨le_rfl, ?_⟩
      intro pool huser
      simp [hidle, WarmPool.Phase.user] at huser
    · exact hright.epoch other attempt task epoch (by simpa [hother] using hbody)

theorem RunRight.lock {event : FileLock.Event ρ} {lock : FileLock.State ρ}
    (hright : RunRight project state) (horderly : Orderly project state (.lock event))
    (hadmits : state.LockAdmits project event)
    (hstep : FileLock.step project.caller project.settings state.lock event = some lock) :
    RunRight project { state with lock := lock } := by
  refine { hright with exclusive := ?_, inside := ?_ }
  · intro run request hrun hinside
    rcases FileLock.inside_of_step hstep hinside with hbefore | ⟨rfl, hfree, -⟩
    · exact hright.exclusive run request hrun hbefore
    · rw [resource_of_isRun hrun] at hfree
      exact horderly hrun hfree request
  · intro run hbusy
    obtain ⟨hrun, hinside⟩ := hright.inside run hbusy
    refine ⟨hrun, FileLock.inside_of_step_of_not_leave hstep hinside ?_⟩
    rintro ending rfl
    have hended : state.body run = .ended := hadmits hrun
    have hbusy : (state.body run).Busy := hbusy
    rw [hended] at hbusy
    exact hbusy

theorem RunRight.setRegeneration {request : ρ} {regeneration : Regeneration} {profile : Option ρ}
    (hright : RunRight project state)
    (hrewrites : regeneration = .regenerating true →
      ∀ run, project.IsRun run → state.lock.phase run ≠ .inside) :
    RunRight project { state with
      regeneration := Function.update state.regeneration request regeneration
      profile := profile } := by
  refine { hright with exclusive := ?_ }
  intro run other hrun hinside
  by_cases hother : other = request
  · subst other
    simp only [Function.update_self]
    exact fun hregenerating => hrewrites hregenerating run hrun hinside
  · simpa [hother] using hright.exclusive run other hrun hinside

end

theorem RunRight.moves [DecidableEq α] {event : WarmPool.Event Unit α}
    (hright : RunRight project state) (hmoves : PoolMoves project state next event) :
    RunRight project next := by
  constructor
  · rw [hmoves.lock, hmoves.regeneration]
    exact hright.exclusive
  · rw [hmoves.lock, hmoves.body]
    exact hright.inside
  · rw [hmoves.body]
    exact hright.own
  · intro run attempt task epoch hbody
    rw [hmoves.body] at hbody
    obtain ⟨hrun, hinside⟩ := hright.inside run (by rw [hbody]; trivial)
    obtain ⟨hepoch, husers⟩ := hright.epoch run attempt task epoch hbody
    have hraised := (WarmPool.counters_of_step hmoves.step).2 ()
    refine ⟨hepoch.trans hraised, ?_⟩
    intro pool huser
    rcases WarmPool.user_of_step hmoves.step huser with hbefore | hregistered
    · rcases husers pool hbefore with ⟨owner, hget⟩ | hstopped
      · rcases WarmPool.get_of_step hmoves.step hget with
          hkept | ⟨actor, entry, hcandidate⟩ | ⟨actor, cancel, rfl, hjob⟩
        · exact Or.inl ⟨owner, hkept⟩
        · exact absurd hcandidate not_candidate
        · -- The pool was released under the run.
          obtain ⟨-, rfl⟩ := hright.stop_of_release hrun hinside (hmoves.called actor rfl) hjob
          rw [WarmPool.cancellations_of_release hmoves.step hjob]
          exact Or.inr (Nat.lt_succ_of_le hepoch)
      · exact Or.inr (lt_of_lt_of_le hstopped hraised)
    · exact Or.inl hregistered

end DbtCraft.Services.RunExecution

/-
# What one step of the worker pool does

Read off the step function once, for the systems that the pool is part of: whose
phase a step changes, how a process can end, what leaves the registry, and how
far a run has come with its command.
-/

import DbtCraft.Services.PoolCustody

namespace DbtCraft.Services.WarmPool

open DbtCraft.Math DbtCraft.Python

universe uπ uτ

variable {π : Type uπ} {τ : Type uτ}

/-- How far a run has come with its command. -/
inductive Stage
  | before
  | executing
  | after

def Phase.stage : Phase π → Stage
  | .idle | .sweeping _ | .reclaiming _ _ _ | .entering _ | .starting _ _ _ | .waiting _
  | .preparing _ _ | .releasing _ _ => .before
  | .executing _ _ => .executing
  | .failing _ _ | .recycling _ _ | .restarting _ _ | .finished => .after

theorem executing_of_stage {phase : Phase π} (hstage : phase.stage = .executing) :
    ∃ pool worker, phase = .executing pool worker := by
  cases phase with
  | executing pool worker => exact ⟨pool, worker, rfl⟩
  | _ => cases hstage

/-- How far the task of an event is after it. -/
def Event.stage (event : Event π τ) (stage : Stage) : Stage :=
  match event with
  | .submit _ => .executing
  | .complete _ | .giveUp _ | .queueTimeout _ | .interrupt _ => .after
  | _ => stage

variable [LinearOrder π] [DecidableEq τ] {deployment : Deployment π τ} {state next : State π τ}
  {event : Event π τ} {task : τ} {worker : Worker}

/-- A step changes the phase of the task that takes it. -/
theorem phase_of_step_of_ne (hstep : step deployment state event = some next)
    (hother : event.actor ≠ some task) : next.phase task = state.phase task := by
  have hne : ∀ actor, event.actor = some actor → task ≠ actor := by
    rintro actor hactor rfl
    exact hother hactor
  cases stepped_of_step hstep with
  | revive _ _ | exit _ | tick => rfl
  | _ => exact Function.update_of_ne (hne _ rfl) _ _

/-- How the process of a live worker can end. -/
theorem live_of_step (hstep : step deployment state event = some next)
    (hlive : worker ∈ state.live) :
    worker ∈ next.live ∨ event = .exit worker ∨
      (∃ actor, event = .stopOwn actor ∧ (state.phase actor).hand = some worker ∧
        (state.phase actor).stage = .after) ∨
      ∃ actor pool, event = .stopWorker actor ∧ (state.phase actor).stops = some pool ∧
        worker ∈ (state.pool pool).workers := by
  have herase : ∀ other, worker ∈ state.live.erase other ∨ worker = other := by
    intro other
    by_cases hother : worker = other
    · exact Or.inr hother
    · exact Or.inl (Finset.mem_erase.mpr ⟨hother, hlive⟩)
  cases stepped_of_step hstep with
  | @exit other =>
    rcases herase other with hkept | rfl
    · exact Or.inl hkept
    · exact Or.inr (Or.inl rfl)
  | @stopFailing actor _ other hphase | @stopRecycling actor _ other hphase =>
    rcases herase other with hkept | rfl
    · exact Or.inl hkept
    · exact Or.inr (Or.inr (Or.inl ⟨actor, rfl, by rw [hphase]; rfl, by rw [hphase]; rfl⟩))
  | @stopReclaimed actor pool _ _ other hphase hother
  | @stopReleased actor pool _ other hphase hother =>
    rcases herase other with hkept | rfl
    · exact Or.inl hkept
    · exact Or.inr (Or.inr (Or.inr ⟨actor, pool, rfl, by rw [hphase]; rfl,
        List.mem_of_getElem? hother⟩))
  | spawn _ | revive _ _ => exact Or.inl (Finset.mem_insert_of_mem hlive)
  | _ => exact Or.inl hlive

/-! ## The registry -/

/-- A registered pool leaves the registry by a sweep that found a candidate, or by a
release of its project. -/
theorem get_of_step {project : π} {pool : ℕ} (hstep : step deployment state event = some next)
    (hget : state.projectPools.get project = some pool) :
    next.projectPools.get project = some pool ∨
      (∃ actor entry, state.Candidate deployment actor entry) ∨
      ∃ actor cancel, event = .release actor ∧ deployment.job actor = .release project cancel := by
  cases stepped_of_step hstep with
  | reclaim _ hcandidate _ | evict _ _ hcandidate => exact Or.inr (Or.inl ⟨_, _, hcandidate⟩)
  | @openPool actor _ hnone =>
    have hne : project ≠ deployment.project actor := by
      rintro rfl
      rw [hget] at hnone
      cases hnone
    exact Or.inl (by simpa [hne] using hget)
  | @release actor released cancel _ _ hjob _ =>
    by_cases hsame : project = released
    · exact Or.inr (Or.inr ⟨actor, cancel, rfl, by rw [hjob, hsame]⟩)
    · exact Or.inl (by simpa [hsame] using hget)
  | _ => exact Or.inl hget

/-- What comes into the registry is new. -/
theorem get_of_get_step {project : π} {pool : ℕ}
    (hstep : step deployment state event = some next)
    (hget : next.projectPools.get project = some pool) :
    state.projectPools.get project = some pool ∨
      pool = state.poolsMade ∧ next.poolsMade = state.poolsMade + 1 := by
  have hpop : ∀ other, (state.projectPools.pop other).get project = some pool →
      state.projectPools.get project = some pool := by
    intro other hother
    rw [Dict.get_pop] at hother
    split at hother
    · cases hother
    · exact hother
  cases stepped_of_step hstep with
  | reclaim _ _ _ | evict _ _ _ | release _ _ _ => exact Or.inl (hpop _ hget)
  | openPool _ _ =>
    simp only [Dict.get_set] at hget
    split at hget
    · exact Or.inr ⟨(Option.some.inj hget).symm, rfl⟩
    · exact Or.inl hget
  | _ => exact Or.inl hget

/-- The counters of pools and of cancellations never go back. -/
theorem counters_of_step (hstep : step deployment state event = some next) :
    state.poolsMade ≤ next.poolsMade ∧
      ∀ project, state.cancellations project ≤ next.cancellations project := by
  have hraised : ∀ (released : π) (cancel : Bool) (project : π),
      state.cancellations project ≤
        (if cancel then
          Function.update state.cancellations released (state.cancellations released + 1)
        else state.cancellations) project := by
    intro released cancel project
    split
    · by_cases hproject : project = released
      · simp [hproject]
      · simp [hproject]
    · exact le_rfl
  cases stepped_of_step hstep with
  | openPool _ _ => exact ⟨Nat.le_succ _, fun _ => le_rfl⟩
  | release _ _ _ | releaseNone _ _ => exact ⟨le_rfl, hraised _ _⟩
  | _ => exact ⟨le_rfl, fun _ => le_rfl⟩

/-- A user's Stop moves the cancellation epoch. -/
theorem cancellations_of_release {project : π} {actor : τ}
    (hstep : step deployment state (.release actor) = some next)
    (hjob : deployment.job actor = .release project true) :
    next.cancellations project = state.cancellations project + 1 := by
  cases stepped_of_step hstep with
  | release _ hown _ | releaseNone _ hown =>
    rw [hjob] at hown
    cases hown
    simp

/-! ## Phases -/

/-- A run refers to the pool it referred to, or to a registered one. -/
theorem user_of_step {pool : ℕ} (hstep : step deployment state event = some next)
    (huser : (next.phase task).user = some pool) :
    (state.phase task).user = some pool ∨ next.Registered pool := by
  by_cases hactor : event.actor = some task
  · cases stepped_of_step hstep with
    | choose _ hget =>
      cases hactor
      simp only [State.setPhase, Function.update_self] at huser
      cases huser
      exact Or.inr ⟨_, hget⟩
    | openPool _ _ =>
      cases hactor
      simp only [State.setPhase, Function.update_self] at huser
      cases huser
      exact Or.inr ⟨deployment.project task, by simp⟩
    | revive hphase _ => exact Or.inl huser
    | exit _ | tick => cases hactor
    | fail hphase | abandonPut hphase =>
      cases hactor
      rcases hphase with hphase | hphase
      all_goals simp_all [State.setPhase, State.giveBack, State.finish, Phase.user]
    | _ =>
      cases hactor
      simp_all [State.setPhase, State.setPool, State.finish, State.enqueue, State.giveBack,
        Phase.user]
  · rw [phase_of_step_of_ne hstep hactor] at huser
    exact Or.inl huser

/-- How far a run comes in one step. -/
theorem stage_of_step {project : π} (hstep : step deployment state event = some next)
    (hactor : event.actor = some task) (hjob : deployment.job task = .run project)
    (hreleasing : ∀ pool index, state.phase task ≠ .releasing pool index) :
    (next.phase task).stage = event.stage (state.phase task).stage := by
  cases stepped_of_step hstep with
  | exit _ | tick => cases hactor
  | revive hphase _ | fail hphase | abandonPut hphase =>
    cases hactor
    rcases hphase with hphase | hphase
    all_goals simp [hphase, State.setPhase, State.giveBack, State.finish, Phase.stage, Event.stage]
  | _ =>
    cases hactor
    simp_all [State.setPhase, State.setPool, State.finish, State.enqueue, State.giveBack,
      Phase.stage, Event.stage]

/-- A command starts once in a call. -/
theorem stage_of_submit (hstep : step deployment state (.submit task) = some next) :
    (state.phase task).stage = .before := by
  cases stepped_of_step hstep with
  | submit hphase _ =>
    rw [hphase]
    rfl

theorem stage_of_complete (hstep : step deployment state (.complete task) = some next) :
    (state.phase task).stage = .executing := by
  cases stepped_of_step hstep with
  | recycle hphase | complete hphase =>
    rw [hphase]
    rfl

/-- The sweeps stop a pool they found to be a candidate. -/
theorem reclaiming_of_step {pool index : ℕ} {rest : List (π × ℕ)}
    (hstep : step deployment state event = some next)
    (hreclaiming : next.phase task = .reclaiming pool index rest) :
    (∃ earlier, state.phase task = .reclaiming pool earlier rest) ∨
      ∃ actor entry, state.Candidate deployment actor entry := by
  by_cases hactor : event.actor = some task
  · cases stepped_of_step hstep with
    | exit _ | tick => cases hactor
    | stopReclaimed hphase _ =>
      cases hactor
      simp only [State.setPhase, Function.update_self] at hreclaiming
      cases hreclaiming
      exact Or.inl ⟨_, hphase⟩
    | reclaim _ hcandidate _ | evict _ _ hcandidate => exact Or.inr ⟨_, _, hcandidate⟩
    | revive _ _ => exact Or.inl ⟨index, hreclaiming⟩
    | _ =>
      cases hactor
      simp [State.setPhase, State.setPool, State.finish, State.enqueue, State.giveBack]
        at hreclaiming
  · rw [phase_of_step_of_ne hstep hactor] at hreclaiming
    exact Or.inl ⟨index, hreclaiming⟩

/-- A release stops the pool it took out of the registry. -/
theorem releasing_of_step {pool index : ℕ} (hstep : step deployment state event = some next)
    (hreleasing : next.phase task = .releasing pool index) :
    (∃ earlier, state.phase task = .releasing pool earlier) ∨
      ∃ project cancel, deployment.job task = .release project cancel ∧
        state.projectPools.get project = some pool ∧
        next.projectPools.get project = none := by
  by_cases hactor : event.actor = some task
  · cases stepped_of_step hstep with
    | exit _ | tick => cases hactor
    | stopReleased hphase _ =>
      cases hactor
      simp only [State.setPhase, Function.update_self] at hreleasing
      cases hreleasing
      exact Or.inl ⟨_, hphase⟩
    | release _ hjob hget =>
      cases hactor
      simp only [State.setPhase, Function.update_self] at hreleasing
      cases hreleasing
      exact Or.inr ⟨_, _, hjob, hget, by simp⟩
    | revive _ _ => exact Or.inl ⟨index, hreleasing⟩
    | _ =>
      cases hactor
      simp [State.setPhase, State.setPool, State.finish, State.enqueue, State.giveBack]
        at hreleasing
  · rw [phase_of_step_of_ne hstep hactor] at hreleasing
    exact Or.inl ⟨index, hreleasing⟩

end DbtCraft.Services.WarmPool

/-
# What one step of a command does

The runners and cancels of `Command` share four tables. These lemmas say, table
by table, what a step can have changed, so that an invariant reads them instead
of the step function.
-/

import DbtCraft.Services.Command

namespace DbtCraft.Services.Command

open DbtCraft.Math DbtCraft.Redis

universe uπ uω uρ uκ

variable {π : Type uπ} {ω : Type uω} {ρ : Type uρ} {κ : Type uκ}
  [DecidableEq π] [DecidableEq ω] [DecidableEq ρ] [DecidableEq κ]
  {deployment : Deployment π ω ρ κ} {state next : State π ω ρ κ} {event : Event π ρ κ}
  {events : List (Event π ρ κ)} {run : ρ}

/-- A run ended as cancelled because it saw the marker. -/
def State.ReportsMarker (state : State π ω ρ κ) (run : ρ) : Prop :=
  state.phase run = .closing .markerSeen ∨ state.phase run = .finished .markerSeen

omit [DecidableEq π] [DecidableEq ω] [DecidableEq κ] in
@[simp]
theorem setPhase_phase {other : ρ} {phase : Phase} :
    (state.setPhase run phase).phase other =
      if other = run then phase else state.phase other := by
  simp [State.setPhase, Function.update_apply]

omit [DecidableEq κ] in
@[simp]
theorem conclude_phase {other : ρ} {report : Report} :
    (state.conclude deployment run report).phase other =
      if other = run then .closing report else state.phase other := by
  simp [State.conclude, State.track]

/-- What a step makes of the phase of a run. -/
inductive PhaseStep (deployment : Deployment π ω ρ κ) (state : State π ω ρ κ)
    (event : Event π ρ κ) (run : ρ) : Phase → Prop
  | same (hquiet : ∀ stored, event ≠ .start run stored) :
      PhaseStep deployment state event run (state.phase run)
  | start (stored : Bool) (hevent : event = .start run stored) (hphase : state.phase run = .idle) :
      PhaseStep deployment state event run (.running none)
  | childExit (returncode : ℤ) (hphase : state.phase run = .running none) :
      PhaseStep deployment state event run (.running (some returncode))
  | conclude (exit : Option ℤ) (report : Report) (hphase : state.phase run = .running exit)
      (hmarker : report = .markerSeen → ∃ answered, event = .check run answered ∧
        ∃ cancel, state.cancelled.get (deployment.processId run) = some cancel) :
      PhaseStep deployment state event run (.closing report)
  | close (report : Report) (hphase : state.phase run = .closing report) :
      PhaseStep deployment state event run (.finished report)

theorem phaseStep_of_step (hstep : step deployment state event = some next) (run : ρ) :
    PhaseStep deployment state event run (next.phase run) := by
  have hother : ∀ {other : ρ} {phase : Phase}, run ≠ other →
      (∀ stored, event ≠ .start run stored) → phase = state.phase run →
      PhaseStep deployment state event run phase := fun _ hquiet hsame => hsame ▸ .same hquiet
  cases event with
  | start other stored =>
    simp only [step] at hstep
    split at hstep <;> cases hstep
    next hidle =>
      by_cases hrun : run = other
      · subst hrun
        simpa [State.track] using PhaseStep.start stored rfl hidle
      · exact hother hrun (by rintro _ ⟨⟩; exact hrun rfl) (by simp [State.track, hrun])
  | childExit other returncode =>
    simp only [step] at hstep
    split at hstep <;> cases hstep
    next hbefore =>
      by_cases hrun : run = other
      · subst hrun
        simpa using PhaseStep.childExit returncode hbefore
      · exact hother hrun (by rintro _ ⟨⟩) (by simp [hrun])
  | check other answered =>
    simp only [step] at hstep
    split at hstep <;> cases hstep
    next returncode hbefore =>
      by_cases hrun : run = other
      · subst hrun
        rw [conclude_phase, if_pos rfl]
        refine .conclude _ _ hbefore fun hmarker => ⟨answered, rfl, ?_⟩
        cases hget : state.cancelled.get (deployment.processId run) with
        | some cancel => exact ⟨cancel, rfl⟩
        | none => simp [State.isCancelled, hget] at hmarker
      · exact hother hrun (by rintro _ ⟨⟩) (by simp [hrun])
  | timeout other | cancelTask other =>
    simp only [step] at hstep
    split at hstep <;> cases hstep
    by_cases hrun : run = other
    · subst hrun
      rw [conclude_phase, if_pos rfl]
      exact .conclude _ _ ‹_› (by rintro ⟨⟩)
    · exact hother hrun (by rintro _ ⟨⟩) (by simp [hrun])
  | close other _ =>
    simp only [step] at hstep
    split at hstep <;> cases hstep
    next report hbefore =>
      by_cases hrun : run = other
      · subst hrun
        simpa using PhaseStep.close report hbefore
      · exact hother hrun (by rintro _ ⟨⟩) (by simp [hrun])
  | mark _ _ | terminate _ | reap _ | unregister _ _ =>
    simp only [step] at hstep
    split at hstep <;> cases hstep
    exact .same (by rintro _ ⟨⟩)
  | clearRegistered _ | clearCancelled _ | tick =>
    cases hstep
    exact .same (by rintro _ ⟨⟩)

/-- A run that is running was running before or has just started. -/
theorem running_of_step {exit : Option ℤ}
    (hstep : step deployment state event = some next) (hrunning : next.phase run = .running exit) :
    (∃ earlier, state.phase run = .running earlier) ∨ ∃ stored, event = .start run stored := by
  have hphase := phaseStep_of_step hstep run
  rw [hrunning] at hphase
  generalize hnext : Phase.running exit = phase at hphase
  cases hphase with
  | same _ => exact Or.inl ⟨exit, hnext.symm⟩
  | start stored hevent _ => exact Or.inr ⟨stored, hevent⟩
  | childExit _ hbefore => exact Or.inl ⟨none, hbefore⟩
  | conclude _ _ _ _ | close _ _ => cases hnext

/-- A live marker was live before or has just been set. -/
theorem marker_of_step {processId : π} {cancel : κ}
    (hstep : step deployment state event = some next)
    (hmarker : next.cancelled.get processId = some cancel) :
    state.cancelled.get processId = some cancel ∨
      event = .mark cancel true ∧ deployment.target cancel = processId := by
  cases event with
  | mark other stored =>
    simp only [step] at hstep
    split at hstep <;> cases hstep
    cases stored
    · exact Or.inl hmarker
    · simp only [if_true, Store.get_setEx] at hmarker
      split at hmarker
      next htarget =>
        obtain rfl := Option.some.inj hmarker
        exact Or.inr ⟨rfl, htarget.symm⟩
      · exact Or.inl hmarker
  | clearCancelled cleared =>
    cases hstep
    simp only [Store.get_del] at hmarker
    split at hmarker
    · cases hmarker
    · exact Or.inl hmarker
  | tick =>
    cases hstep
    exact Or.inl (Store.get_of_get_elapse hmarker)
  | clearRegistered _ =>
    cases hstep
    exact Or.inl hmarker
  | start _ _ | childExit _ _ | check _ _ | timeout _ | cancelTask _ | close _ _
  | terminate _ | reap _ | unregister _ _ =>
    simp only [step] at hstep
    split at hstep <;> cases hstep
    exact Or.inl hmarker

/-- A run reports the marker only by looking at a live one. -/
theorem reportsMarker_of_step (hstep : step deployment state event = some next)
    (hreports : next.ReportsMarker run) :
    state.ReportsMarker run ∨
      ∃ answered, event = .check run answered ∧
        (∃ exit, state.phase run = .running exit) ∧
        ∃ cancel, state.cancelled.get (deployment.processId run) = some cancel := by
  unfold State.ReportsMarker at hreports
  have hphase := phaseStep_of_step hstep run
  generalize next.phase run = phase at hphase hreports
  cases hphase with
  | same _ => exact Or.inl hreports
  | start _ _ _ | childExit _ _ => simp at hreports
  | conclude exit report hbefore hmarker =>
    obtain ⟨answered, hevent, hcancel⟩ := hmarker (by simpa using hreports)
    exact Or.inr ⟨answered, hevent, ⟨exit, hbefore⟩, hcancel⟩
  | close report hbefore =>
    have hreport : report = .markerSeen := by simpa using hreports
    exact Or.inl (Or.inl (hreport ▸ hbefore))

/-- A child is started and not yet given up. -/
def Phase.Active : Phase → Prop
  | .running _ | .closing _ => True
  | .idle | .finished _ => False

/-- A run that is active was active before or has just started. -/
theorem active_of_step (hstep : step deployment state event = some next)
    (hactive : (next.phase run).Active) :
    (state.phase run).Active ∨ ∃ stored, event = .start run stored := by
  have hphase := phaseStep_of_step hstep run
  generalize next.phase run = phase at hphase hactive
  cases hphase with
  | same _ => exact Or.inl hactive
  | start stored hevent _ => exact Or.inr ⟨stored, hevent⟩
  | childExit _ hbefore | conclude _ _ hbefore _ =>
    rw [hbefore]
    exact Or.inl trivial
  | close _ _ => cases hactive

/-- What a run reported stays reported. -/
theorem finished_of_step {report : Report} (hstep : step deployment state event = some next)
    (hfinished : state.phase run = .finished report) : next.phase run = .finished report := by
  have hphase := phaseStep_of_step hstep run
  generalize next.phase run = phase at hphase ⊢
  cases hphase with
  | same _ => exact hfinished
  | start _ _ hbefore | childExit _ hbefore | conclude _ _ hbefore _ | close _ hbefore =>
    cases hfinished.symm.trans hbefore

/-- A cancel terminates the child its worker tracks at that moment. -/
theorem terminating_of_step {cancel : κ} (hstep : step deployment state event = some next)
    (hterminating : next.cancelPhase cancel = .terminating run) :
    state.cancelPhase cancel = .terminating run ∨
      event = .terminate cancel ∧
        state.localProcesses (deployment.cancelWorker cancel) (deployment.target cancel) =
          some run := by
  cases event with
  | terminate other =>
    simp only [step] at hstep
    split at hstep <;> cases hstep
    by_cases hcancel : cancel = other
    · subst cancel
      refine Or.inr ⟨rfl, ?_⟩
      cases htracked : state.localProcesses (deployment.cancelWorker other)
          (deployment.target other) with
      | none => simp [State.setCancelPhase, htracked] at hterminating
      | some tracked => simpa [State.setCancelPhase, htracked] using hterminating
    · exact Or.inl (by simpa [State.setCancelPhase, hcancel] using hterminating)
  | mark other _ | reap other | unregister other _ =>
    simp only [step] at hstep
    split at hstep <;> cases hstep
    by_cases hcancel : cancel = other
    · simp [State.setCancelPhase, State.track, hcancel] at hterminating
    · exact Or.inl (by
        simpa [State.setCancelPhase, State.track, hcancel] using hterminating)
  | start _ _ | childExit _ _ | check _ _ | timeout _ | cancelTask _ | close _ _ =>
    simp only [step] at hstep
    split at hstep <;> cases hstep
    exact Or.inl hterminating
  | clearRegistered _ | clearCancelled _ | tick =>
    cases hstep
    exact Or.inl hterminating

/-- What a worker tracks is running, on that worker and under that process id. -/
def TracksRunning (deployment : Deployment π ω ρ κ) (state : State π ω ρ κ) : Prop :=
  ∀ worker processId run, state.localProcesses worker processId = some run →
    deployment.worker run = worker ∧ deployment.processId run = processId ∧
      ∃ exit, state.phase run = .running exit

omit [DecidableEq ρ] [DecidableEq κ] in
/-- Popping entries and giving up what they tracked keeps the tables right. -/
theorem TracksRunning.of_track {worker : ω} {processId : π}
    (htracks : TracksRunning deployment state)
    (hphase : ∀ run exit, state.phase run = .running exit →
      (∃ exit', next.phase run = .running exit') ∨
        deployment.worker run = worker ∧ deployment.processId run = processId)
    (hlocal : next.localProcesses = (state.track worker processId none).localProcesses) :
    TracksRunning deployment next := by
  intro other otherId run htracked
  rw [hlocal] at htracked
  by_cases hworker : other = worker
  · subst hworker
    by_cases hid : otherId = processId
    · subst hid
      simp [State.track] at htracked
    · have hbefore : state.localProcesses other otherId = some run := by
        simpa [State.track, hid] using htracked
      obtain ⟨hown, hprocess, exit, hrunning⟩ := htracks _ _ _ hbefore
      rcases hphase run exit hrunning with hnext | ⟨-, hsame⟩
      · exact ⟨hown, hprocess, hnext⟩
      · exact absurd (hprocess.symm.trans hsame) hid
  · have hbefore : state.localProcesses other otherId = some run := by
      simpa [State.track, hworker] using htracked
    obtain ⟨hown, hprocess, exit, hrunning⟩ := htracks _ _ _ hbefore
    rcases hphase run exit hrunning with hnext | ⟨hsame, -⟩
    · exact ⟨hown, hprocess, hnext⟩
    · exact absurd (hown.symm.trans hsame) hworker

omit [DecidableEq κ] in
/-- The end of a run takes its own entry out of the table. -/
theorem TracksRunning.conclude {report : Report} (htracks : TracksRunning deployment state) :
    TracksRunning deployment (state.conclude deployment run report) := by
  refine htracks.of_track (fun other exit hrunning => ?_) rfl
  by_cases hother : other = run
  · exact Or.inr (by rw [hother]; exact ⟨rfl, rfl⟩)
  · exact Or.inl ⟨exit, by simpa [hother] using hrunning⟩

theorem tracksRunning_step (htracks : TracksRunning deployment state)
    (hstep : step deployment state event = some next) : TracksRunning deployment next := by
  cases event with
  | start run stored =>
    simp only [step] at hstep
    split at hstep <;> cases hstep
    next hidle =>
      intro worker processId other htracked
      by_cases hentry : worker = deployment.worker run ∧ processId = deployment.processId run
      · obtain ⟨rfl, rfl⟩ := hentry
        have hother : run = other := by simpa [State.track, State.setPhase] using htracked
        subst hother
        exact ⟨rfl, rfl, none, by simp⟩
      · have hbefore : state.localProcesses worker processId = some other := by
          by_cases hworker : worker = deployment.worker run
          · subst hworker
            have hid : processId ≠ deployment.processId run := fun h => hentry ⟨rfl, h⟩
            simpa [State.track, State.setPhase, hid] using htracked
          · simpa [State.track, State.setPhase, hworker] using htracked
        obtain ⟨hown, hprocess, exit, hrunning⟩ := htracks _ _ _ hbefore
        have hother : other ≠ run := by
          rintro rfl
          rw [hidle] at hrunning
          cases hrunning
        exact ⟨hown, hprocess, exit, by simpa [State.track, hother] using hrunning⟩
  | childExit run returncode =>
    simp only [step] at hstep
    split at hstep <;> cases hstep
    intro worker processId other htracked
    obtain ⟨hown, hprocess, exit, hrunning⟩ := htracks _ _ _ htracked
    by_cases hother : other = run
    · exact ⟨hown, hprocess, some returncode, by simp [hother]⟩
    · exact ⟨hown, hprocess, exit, by simpa [hother] using hrunning⟩
  | check _ _ | timeout _ | cancelTask _ =>
    simp only [step] at hstep
    split at hstep <;> cases hstep
    exact htracks.conclude
  | close run stored =>
    simp only [step] at hstep
    split at hstep <;> cases hstep
    next hclosing =>
      intro worker processId other htracked
      obtain ⟨hown, hprocess, exit, hrunning⟩ := htracks _ _ _ htracked
      have hother : other ≠ run := by
        rintro rfl
        rw [hclosing] at hrunning
        cases hrunning
      exact ⟨hown, hprocess, exit, by simpa [hother] using hrunning⟩
  | reap cancel =>
    simp only [step] at hstep
    split at hstep <;> cases hstep
    exact htracks.of_track (fun other exit hrunning => Or.inl ⟨exit, hrunning⟩) rfl
  | mark _ _ | terminate _ | unregister _ _ =>
    simp only [step] at hstep
    split at hstep <;> cases hstep
    exact htracks
  | clearRegistered _ | clearCancelled _ | tick =>
    cases hstep
    exact htracks

/-- A run that is still idle was idle before, and this step did not start it. -/
theorem idle_of_step (hstep : step deployment state event = some next)
    (hidle : next.phase run = .idle) :
    state.phase run = .idle ∧ ∀ stored, event ≠ .start run stored := by
  have hphase := phaseStep_of_step hstep run
  rw [hidle] at hphase
  generalize hnext : Phase.idle = phase at hphase
  cases hphase with
  | same hquiet => exact ⟨rfl, hquiet⟩
  | start _ _ _ | childExit _ _ | conclude _ _ _ _ | close _ _ => cases hnext

end DbtCraft.Services.Command

/-
# A schedule's summary is that of its last run

`_handle_due_schedule` writes `last_run_id` after it has started the run, and the
callback of a run writes `last_status` whatever run the row names by then. The
summary is right once everything has ended, as long as a run is recorded before its
own callback is through, and no callback comes after that of the run its schedule
names last.
-/

import DbtCraft.Services.ScheduleClaims

namespace DbtCraft.Services.Scheduler

open DbtCraft.Math DbtCraft.Python DbtCraft.Services.RunOutcome

universe uι uσ uε uπ uκ

variable {ι : Type uι} {σ : Type uσ} {ε : Type uε} {π : Type uπ} {κ : Type uκ}
  {deployment : Deployment ι σ ε π κ} {state next : State ι σ ε π κ} {event : Event ι σ ε π κ}
  {events : List (Event ι σ ε π κ)}

/-- The callback of a run has not ended. -/
def State.Pending (state : State ι σ ε π κ) (run : ℕ) : Prop :=
  ∃ current ∈ state.runs[run]?, current.task ≠ .finished

variable [DecidableEq σ]

/-- The run that a process is about to record is still pending. -/
def State.RecordsPending (state : State ι σ ε π κ) (process : ι) : Prop :=
  match state.phase process with
  | .recording _ _ run _ => state.Pending run
  | _ => True

/-- A property of the run that the schedule of a run names last. -/
def State.NamedLast (state : State ι σ ε π κ) (run : ℕ) (property : ℕ → Prop) : Prop :=
  ∀ current ∈ state.runs[run]?, ∀ row ∈ state.rows.get current.schedule,
    ∀ last ∈ row.lastRunId, property last

/-- A run with this summary has ended. -/
def Terminal (summary : Summary) : Prop :=
  summary = some .success ∨ summary = some .error ∨ summary = some .cancelled

/-- The bookkeeping of a run precedes its callback, the callbacks come in the order of
the bookkeeping or do no harm, and a run's row is final when its callback reads it. -/
def InOrder (state : State ι σ ε π κ) : Event ι σ ε π κ → Prop
  | .record process => state.RecordsPending process
  | .load run => ∀ current ∈ state.runs[run]?, Terminal current.status
  | .recordOutcome run => state.NamedLast run fun last => last = run ∨ state.Pending last
  | .failOutcome run => state.NamedLast run fun last => last ≠ run
  | .writeRun run _ => ∀ current ∈ state.runs[run]?, current.task = .executing
  | _ => True

/-- Once every launched run has ended, with its callback, the status of a schedule is
the terminal status of the run it names. -/
def Summarized (state : State ι σ ε π κ) : Prop :=
  (∀ run ∈ state.runs, run.task = .finished) →
    ∀ schedule row last, state.rows.get schedule = some row → row.lastRunId = some last →
      ∃ run, state.runs[last]? = some run ∧ Terminal run.status ∧
        row.lastStatus = some run.status

section

instance (state : State ι σ ε π κ) (run : ℕ) : Decidable (state.Pending run) :=
  inferInstanceAs (Decidable (∃ current ∈ state.runs[run]?, current.task ≠ .finished))

instance (state : State ι σ ε π κ) (process : ι) : Decidable (state.RecordsPending process) :=
  match hphase : state.phase process with
  | .recording _ _ run _ =>
    decidable_of_iff (state.Pending run) (by simp only [State.RecordsPending, hphase])
  | .handling _ _ | .idle | .comparing | .refreshing | .leading | .selecting _
  | .launching _ _ _ _ | .stopped =>
    isTrue (by simp only [State.RecordsPending, hphase])

instance (state : State ι σ ε π κ) (run : ℕ) (property : ℕ → Prop) [DecidablePred property] :
    Decidable (state.NamedLast run property) :=
  inferInstanceAs (Decidable (∀ current ∈ state.runs[run]?,
    ∀ row ∈ state.rows.get current.schedule, ∀ last ∈ row.lastRunId, property last))

instance (summary : Summary) : Decidable (Terminal summary) :=
  inferInstanceAs (Decidable (_ ∨ _ ∨ _))

instance (state : State ι σ ε π κ) : (event : Event ι σ ε π κ) → Decidable (InOrder state event)
  | .record process => inferInstanceAs (Decidable (state.RecordsPending process))
  | .load run =>
    inferInstanceAs (Decidable (∀ current ∈ state.runs[run]?, Terminal current.status))
  | .recordOutcome run =>
    inferInstanceAs (Decidable (state.NamedLast run fun last => last = run ∨ state.Pending last))
  | .failOutcome run =>
    inferInstanceAs (Decidable (state.NamedLast run fun last => last ≠ run))
  | .writeRun run _ =>
    inferInstanceAs (Decidable (∀ current ∈ state.runs[run]?, current.task = .executing))
  | .acquire _ | .compare _ | .refresh _ | .standIn _ | .beginTick _ _ | .select _ _
  | .advance _ | .failAdvance _ _ | .launch _ _ | .failRecord _ | .endTick _ | .fail _
  | .stop _ _ | .create _ | .readSchedule _ | .writeSchedule _ | .deleteSchedule _
  | .deleteProject _ | .second => isTrue trivial

end

/-! ## The invariant -/

/-- A run that has ended has a terminal status, which its callback has read. -/
def Run.Right (run : Run σ) : Prop :=
  match run.task with
  | .executing => True
  | .completing summary => summary = run.status ∧ Terminal run.status
  | .finished => Terminal run.status

/-- Every row names a run of its schedule, whose status it has when the run has ended. -/
structure SummaryRight (phase : ι → Phase σ π κ) (rows : Dict σ (Row π κ))
    (runs : List (Run σ)) : Prop where
  recording : ∀ process now schedule run rest, phase process = .recording now schedule run rest →
    ∃ current, runs[run]? = some current ∧ current.schedule = schedule
  loaded : ∀ (run : ℕ) current, runs[run]? = some current → current.Right
  last : ∀ schedule row last, rows.get schedule = some row → row.lastRunId = some last →
    ∃ current, runs[last]? = some current ∧ current.schedule = schedule ∧
      (current.task = .finished → row.lastStatus = some current.status)

namespace SummaryRight

variable {phase : ι → Phase σ π κ} {rows updated : Dict σ (Row π κ)} {runs : List (Run σ)}

theorem setRows (hright : SummaryRight phase rows runs)
    (hkept : ∀ schedule row last, updated.get schedule = some row → row.lastRunId = some last →
      ∃ earlier, rows.get schedule = some earlier ∧ earlier.lastRunId = some last ∧
        row.lastStatus = earlier.lastStatus) : SummaryRight phase updated runs := by
  refine { hright with last := ?_ }
  intro schedule row last hget hlast
  obtain ⟨earlier, hearlier, hnamed, hstatus⟩ := hkept schedule row last hget hlast
  rw [hstatus]
  exact hright.last schedule earlier last hearlier hnamed

theorem setPhase [DecidableEq ι] {process : ι} {after : Phase σ π κ}
    (hright : SummaryRight phase rows runs)
    (hafter : ∀ now schedule run rest, after ≠ .recording now schedule run rest) :
    SummaryRight (Function.update phase process after) rows runs := by
  refine { hright with recording := ?_ }
  intro other now schedule run rest hrecording
  by_cases hother : other = process
  · subst other
    rw [Function.update_self] at hrecording
    exact absurd hrecording (hafter now schedule run rest)
  · rw [Function.update_of_ne hother] at hrecording
    exact hright.recording other now schedule run rest hrecording

/-- A run starts, and its process is about to record it. -/
theorem launch [DecidableEq ι] {process : ι} {now : ℕ} {schedule : σ}
    {rest : List (σ × Row π κ)} (hright : SummaryRight phase rows runs) :
    SummaryRight (Function.update phase process (.recording now schedule runs.length rest)) rows
      (runs ++ [⟨schedule, .executing, some .running⟩]) := by
  have hkept : ∀ (run : ℕ) current, runs[run]? = some current →
      (runs ++ [⟨schedule, .executing, some .running⟩])[run]? = some current := by
    intro run current hrun
    rw [List.getElem?_append_left (List.getElem?_eq_some_iff.mp hrun).1]
    exact hrun
  constructor
  · intro other time named run left hrecording
    by_cases hother : other = process
    · subst other
      rw [Function.update_self] at hrecording
      cases hrecording
      exact ⟨_, List.getElem?_concat_length, rfl⟩
    · rw [Function.update_of_ne hother] at hrecording
      obtain ⟨current, hrun, hschedule⟩ := hright.recording other time named run left hrecording
      exact ⟨current, hkept run current hrun, hschedule⟩
  · intro run current hrun
    by_cases hlength : run < runs.length
    · rw [List.getElem?_append_left hlength] at hrun
      exact hright.loaded run current hrun
    · rw [List.getElem?_append_right (Nat.le_of_not_lt hlength)] at hrun
      have hnew : current ∈ [⟨schedule, .executing, some .running⟩] :=
        List.mem_of_getElem? hrun
      rw [List.mem_singleton.mp hnew]
      exact trivial
  · intro named row last hget hlast
    obtain ⟨current, hrun, hcurrent⟩ := hright.last named row last hget hlast
    exact ⟨current, hkept last current hrun, hcurrent⟩

theorem setRun {run : ℕ} {before after : Run σ} (hright : SummaryRight phase rows runs)
    (hbefore : runs[run]? = some before) (hschedule : after.schedule = before.schedule)
    (hloaded : after.Right)
    (hlast : ∀ row, rows.get after.schedule = some row → row.lastRunId = some run →
      after.task = .finished → row.lastStatus = some after.status) :
    SummaryRight phase rows (runs.set run after) := by
  have hset : ∀ (other : ℕ), (runs.set run after)[other]? =
      if other = run then some after else runs[other]? := by
    intro other
    by_cases hother : other = run
    · subst other
      simp [(List.getElem?_eq_some_iff.mp hbefore).1]
    · simp [hother, Ne.symm hother]
  constructor
  · intro process now schedule other rest hrecording
    obtain ⟨current, hcurrent, hnamed⟩ := hright.recording process now schedule other rest hrecording
    by_cases hother : other = run
    · subst other
      cases hbefore.symm.trans hcurrent
      exact ⟨after, by simp [hset], hschedule.trans hnamed⟩
    · exact ⟨current, by simp [hset, hother, hcurrent], hnamed⟩
  · intro other current hcurrent
    rw [hset] at hcurrent
    split at hcurrent
    · cases hcurrent
      exact hloaded
    · exact hright.loaded other current hcurrent
  · intro schedule row last hget hnamed
    obtain ⟨current, hcurrent, hown, hstatus⟩ := hright.last schedule row last hget hnamed
    by_cases hother : last = run
    · subst last
      cases hbefore.symm.trans hcurrent
      refine ⟨after, by simp [hset], hschedule.trans hown, ?_⟩
      rw [← hown, ← hschedule] at hget
      exact hlast row hget hnamed
    · exact ⟨current, by simp [hset, hother, hcurrent], hown, hstatus⟩

end SummaryRight

/-! ## Steps -/

theorem summary_of_updateRow {schedule : σ} {update : Row π κ → Row π κ}
    (hupdate : ∀ row, (update row).lastRunId = row.lastRunId ∧
      (update row).lastStatus = row.lastStatus) :
    ∀ other row last, (state.updateRow schedule update).get other = some row →
      row.lastRunId = some last →
      ∃ earlier, state.rows.get other = some earlier ∧ earlier.lastRunId = some last ∧
        row.lastStatus = earlier.lastStatus := by
  intro other row last hget hlast
  rw [get_updateRow] at hget
  split at hget
  · obtain ⟨earlier, hearlier, rfl⟩ := Option.map_eq_some_iff.mp hget
    exact ⟨earlier, hearlier, (hupdate earlier).1 ▸ hlast, (hupdate earlier).2⟩
  · exact ⟨row, hget, hlast, rfl⟩

variable [DecidableEq ι] [DecidableEq ε] [DecidableEq π] [DecidableEq κ]

theorem summaryRight_init : SummaryRight (machine deployment).init.phase
    (machine deployment).init.rows (machine deployment).init.runs where
  recording _ _ _ _ _ hrecording := by cases hrecording
  loaded _ _ hrun := by cases hrun
  last _ _ _ hget := by cases hget

theorem summaryRight_step (hright : SummaryRight state.phase state.rows state.runs)
    (horder : InOrder state event) (hstep : step deployment state event = some next) :
    SummaryRight next.phase next.rows next.runs := by
  cases event with
  | acquire process =>
    simp only [step] at hstep
    split at hstep
    · split at hstep <;> cases hstep
      · exact hright.setPhase (by simp)
      · exact hright.setPhase (by simp)
    · cases hstep
  | compare process =>
    simp only [step] at hstep
    split at hstep
    · split at hstep <;> cases hstep
      · exact hright.setPhase (by simp)
      · exact hright.setPhase (by simp)
    · cases hstep
  | select process due =>
    simp only [step] at hstep
    split at hstep
    · split at hstep <;> cases hstep
      exact hright.setPhase (by simp)
    · cases hstep
  | refresh process | standIn process | beginTick process now | endTick process | fail process
  | failRecord process =>
    simp only [step] at hstep
    split at hstep <;> cases hstep
    all_goals exact hright.setPhase (by simp)
  | stop process released =>
    cases hstep
    exact hright.setPhase (by simp)
  | advance process =>
    simp only [step] at hstep
    split at hstep
    next now schedule row rest hphase =>
      cases hstep
      refine SummaryRight.setPhase (hright.setRows ?_) ?_
      · exact summary_of_updateRow fun _ => ⟨rfl, rfl⟩
      · intro time named run left
        unfold afterAdvance
        split
        · split <;> simp
        · simp
    · cases hstep
  | failAdvance process applied =>
    simp only [step] at hstep
    split at hstep
    · cases hstep
      refine SummaryRight.setPhase (hright.setRows ?_) (by simp)
      cases applied with
      | false => exact fun _ row _ hget hlast => ⟨row, hget, hlast, rfl⟩
      | true => exact summary_of_updateRow fun _ => ⟨rfl, rfl⟩
    · cases hstep
  | launch process started =>
    simp only [step] at hstep
    split at hstep
    · split at hstep <;> cases hstep
      · exact hright.launch
      · exact hright.setPhase (by simp)
    · cases hstep
  | record process =>
    simp only [step] at hstep
    split at hstep
    next now schedule run rest hphase =>
      cases hstep
      obtain ⟨current, hcurrent, hschedule⟩ := hright.recording process _ _ _ _ hphase
      simp only [InOrder, State.RecordsPending, hphase] at horder
      have hpending : current.task ≠ .finished := by
        obtain ⟨pending, hpending, htask⟩ := horder
        cases hcurrent.symm.trans hpending
        exact htask
      refine SummaryRight.setPhase ?_ (by simp)
      refine { hright with last := ?_ }
      intro other row last hget hlast
      rw [get_updateRow] at hget
      split at hget
      next hother =>
        obtain ⟨earlier, -, rfl⟩ := Option.map_eq_some_iff.mp hget
        cases hlast
        exact ⟨current, hcurrent, hschedule.trans hother.symm,
          fun htask => absurd htask hpending⟩
      · exact hright.last other row last hget hlast
    · cases hstep
  | create edit =>
    simp only [step] at hstep
    split at hstep <;> cases hstep
    apply hright.setRows
    intro schedule row last hget hlast
    rw [Dict.get_set] at hget
    split at hget
    · cases hget
      cases hlast
    · exact ⟨row, hget, hlast, rfl⟩
  | readSchedule edit =>
    simp only [step] at hstep
    split at hstep <;> cases hstep
    exact hright
  | writeSchedule edit =>
    simp only [step] at hstep
    split at hstep <;> cases hstep
    apply hright.setRows
    exact summary_of_updateRow fun _ => ⟨rfl, rfl⟩
  | deleteSchedule schedule =>
    cases hstep
    apply hright.setRows
    intro other row last hget hlast
    rw [Dict.get_pop] at hget
    split at hget
    · cases hget
    · exact ⟨row, hget, hlast, rfl⟩
  | writeRun run status =>
    simp only [step] at hstep
    split at hstep <;> cases hstep
    next current hcurrent =>
      have htask := horder current hcurrent
      refine SummaryRight.setRun hright hcurrent rfl ?_ ?_
      · simp only [Run.Right, htask]
      · intro row _ _ hfinished
        cases htask.symm.trans hfinished
  | load run =>
    simp only [step] at hstep
    split at hstep <;> cases hstep
    next schedule status hcurrent =>
      refine SummaryRight.setRun hright hcurrent rfl ?_ ?_
      · exact ⟨rfl, horder ⟨schedule, .executing, status⟩ hcurrent⟩
      · intro row _ _ hfinished
        cases hfinished
  | recordOutcome run =>
    simp only [step] at hstep
    split at hstep <;> cases hstep
    next schedule summary status hcurrent =>
      obtain ⟨hsummary, hterminal⟩ := hright.loaded run _ hcurrent
      -- The run is still pending when the row is written, so the row may say anything.
      refine SummaryRight.setRun { hright with last := ?_ } hcurrent rfl ?_ ?_
      · intro other row last hget hlast
        rw [get_updateRow] at hget
        split at hget
        next hother =>
          subst other
          obtain ⟨earlier, hearlier, rfl⟩ := Option.map_eq_some_iff.mp hget
          obtain ⟨named, hnamed, hschedule, -⟩ := hright.last schedule earlier last hearlier hlast
          refine ⟨named, hnamed, hschedule, ?_⟩
          intro hfinished
          rcases horder _ hcurrent earlier hearlier last hlast with hsame | hpending
          · rw [hsame] at hnamed
            cases hcurrent.symm.trans hnamed
            cases hfinished
          · obtain ⟨pending, hpending, htask⟩ := hpending
            cases hnamed.symm.trans hpending
            exact absurd hfinished htask
        · exact hright.last other row last hget hlast
      · exact hterminal
      · intro row hget _ _
        rw [get_updateRow, if_pos rfl] at hget
        obtain ⟨earlier, -, rfl⟩ := Option.map_eq_some_iff.mp hget
        exact congrArg some hsummary
  | failOutcome run =>
    simp only [step] at hstep
    split at hstep <;> cases hstep
    next schedule summary status hcurrent =>
      refine SummaryRight.setRun hright hcurrent rfl ?_ ?_
      · exact (hright.loaded run _ hcurrent).2
      · intro row hget hlast _
        exact absurd rfl (horder _ hcurrent row hget run hlast)
  | deleteProject _ | second =>
    cases hstep
    exact hright

/-- The summary of every schedule is right in any run whose steps are in order. -/
theorem summarized_of_ordered_steps (hpath : (machine deployment).Path InOrder events state) :
    Summarized state := by
  have hright := hpath.invariant
    (P := fun state => SummaryRight state.phase state.rows state.runs) summaryRight_init
    fun hsource horder hstep => summaryRight_step hsource horder hstep
  intro hfinished schedule row last hget hlast
  obtain ⟨run, hrun, -, hstatus⟩ := hright.last schedule row last hget hlast
  have htask : run.task = .finished := hfinished run (List.mem_of_getElem? hrun)
  have hterminal := hright.loaded last run hrun
  rw [Run.Right, htask] at hterminal
  exact ⟨run, hrun, hterminal, hstatus htask⟩

/-- Two launches of one schedule, each recorded as soon as it has started. -/
def twoLaunches : List (Event Bool Bool Bool Bool Bool) :=
  [Event.create false, .acquire false] ++ tick false 1 { project := false, cron := false } ++
    [Event.endTick false, .acquire false, .compare false, .refresh false] ++
    tick false 6 { project := false, cron := false, nextRunAt := some 5 } ++
    [Event.launch false true, .record false, .endTick false, .acquire false, .compare false,
      .refresh false] ++
    tick false 11 (recordedRow 10 0 .running) ++ [Event.launch false true, .record false]

/-- The end of a run, up to its callback. -/
def ending (run : ℕ) (status : RunStatus) : List (Event Bool Bool Bool Bool Bool) :=
  [.writeRun run (some status), .load run, .recordOutcome run]

/-- The earlier run ends while the later one is still running. -/
theorem summarized_of_runs_in_order :
    ∃ events state, (machine everyFive).Path InOrder events state ∧
      (∀ run ∈ state.runs, run.task = .finished) ∧
      state.rows.get false = some (recordedRow 15 1 .success) ∧ Summarized state := by
  obtain ⟨state, hrun, hruns, hrow⟩ :
      ∃ state, (machine everyFive).runUnder InOrder (machine everyFive).init
        (twoLaunches ++ ending 0 .error ++ ending 1 .success) = some state ∧
        (∀ run ∈ state.runs, run.task = .finished) ∧
        state.rows.get false = some (recordedRow 15 1 .success) := ⟨_, rfl, by decide, rfl⟩
  have hpath := Machine.path_of_runUnder hrun
  exact ⟨_, state, hpath, hruns, hrow, summarized_of_ordered_steps hpath⟩

/-- The earlier run ends last, and its failure is shown as that of the later one. -/
theorem not_summarized_of_overlapping_runs :
    ¬ ∀ (deployment : Deployment Bool Bool Bool Bool Bool) events state,
      (machine deployment).Path Machine.anyStep events state → Summarized state := by
  intro hclaim
  obtain ⟨state, hrun, hfinished, hrow, hlater⟩ :
      ∃ state, (machine everyFive).runFrom (machine everyFive).init
        (twoLaunches ++ ending 1 .success ++ ending 0 .error) = some state ∧
        (∀ run ∈ state.runs, run.task = .finished) ∧
        state.rows.get false = some (recordedRow 15 1 .error) ∧
        state.runs[1]? = some ⟨false, .finished, some .success⟩ := ⟨_, rfl, by decide, rfl, rfl⟩
  obtain ⟨run, hnamed, -, hstatus⟩ :=
    hclaim everyFive _ _ (Machine.path_of_runFrom hrun) hfinished false _ 1 hrow rfl
  cases hlater.symm.trans hnamed
  cases hstatus

end DbtCraft.Services.Scheduler

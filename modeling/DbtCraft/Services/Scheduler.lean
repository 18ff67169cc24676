/-
# The run scheduler

`RunScheduler` of `app/services/scheduler.py` in any number of processes: the
leader lease, the ticks that claim due schedules and launch their runs, and the
bookkeeping of a launch; with the runs themselves and their completion callback
(`app/services/run_launcher.py`), and the edits of schedules by the web app
(`features/orchestrate/server.ts`).

Each statement on Redis or the database is one step. Times are in microseconds.
The maintenance of a tick, notifications and Iceberg publishing are left out.
-/

import DbtCraft.Config
import DbtCraft.Math.Machine
import DbtCraft.Python.Dict
import DbtCraft.Redis.Store
import DbtCraft.Services.RunOutcome

namespace DbtCraft.Services.Scheduler

open DbtCraft.Math DbtCraft.Python DbtCraft.Redis DbtCraft.Services.RunOutcome

universe uι uσ uε uπ uκ

variable {ι : Type uι} {σ : Type uσ} {ε : Type uε} {π : Type uπ} {κ : Type uκ}

/-- What `_load_run_summary` says about a run; `none` is `unknown`. -/
abbrev Summary := Option RunStatus

/-- A row of `dbt_schedules`. -/
structure Row (π : Type uπ) (κ : Type uκ) where
  project : π
  cron : κ
  isActive : Bool := true
  nextRunAt : Option ℕ := none
  lastRunId : Option ℕ := none
  lastStatus : Option Summary := none
  deriving DecidableEq

/-- The input of a call of `createSchedule` or `updateSchedule`. -/
structure Edit (σ : Type uσ) (π : Type uπ) (κ : Type uκ) where
  schedule : σ
  project : π
  cron : κ
  isActive : Bool := true

/-- The scheduler processes `ι`, and the edits `ε` ever made. -/
structure Deployment (ι : Type uι) (σ : Type uσ) (ε : Type uε) (π : Type uπ)
    (κ : Type uκ) where
  settings : Settings
  /-- `id(self)` of the `RunScheduler` of a process. -/
  instanceId : ι → ℕ
  edit : ε → Edit σ π κ
  /-- `next_fire_time`, by `croniter`. -/
  nextFireTime : κ → ℕ → Option ℕ

/-- `is_misfire` for a schedule with a due time. -/
def isMisfire (settings : Settings) (due now : ℕ) : Bool :=
  decide (settings.schedulerMisfireGraceSeconds * 1000000 < (now - due : ℤ))

/-- Where a scheduler process is. -/
inductive Phase (σ : Type uσ) (π : Type uπ) (κ : Type uκ)
  | /-- Between two ticks. -/
    idle
  | /-- In `_acquire_leader`, after a refused `SET NX`. -/
    comparing
  | /-- In `_acquire_leader`, after a `GET` of its own instance. -/
    refreshing
  | /-- `_acquire_leader` has returned `True`. -/
    leading
  | /-- The tick has taken the time. -/
    selecting (now : ℕ)
  | /-- Before the next of the selected rows. -/
    handling (now : ℕ) (due : List (σ × Row π κ))
  | /-- The row has been advanced; `launch_dbt_run` comes next. -/
    launching (now : ℕ) (schedule : σ) (dueAt : ℕ) (rest : List (σ × Row π κ))
  | /-- `launch_dbt_run` has returned; `last_run_id` is not written yet. -/
    recording (now : ℕ) (schedule : σ) (run : ℕ) (rest : List (σ × Row π κ))
  | stopped
  deriving DecidableEq

/-- Where the background task of a launched run is. -/
inductive Task
  | /-- In `run_command`. -/
    executing
  | /-- In `on_complete`, with this summary. -/
    completing (summary : Summary)
  | finished
  deriving DecidableEq

/-- Where a call of `updateSchedule` is. -/
inductive EditPhase (κ : Type uκ)
  | idle
  | /-- After `findUnique`, with the cron and the due time it read. -/
    editing (cron : κ) (nextRunAt : Option ℕ)
  | finished
  deriving DecidableEq

/-- A run that `launch_dbt_run` started. -/
structure Run (σ : Type uσ) where
  schedule : σ
  task : Task := .executing
  /-- The status of its `dbt_runs` row. -/
  status : Summary := some .running

structure State (ι : Type uι) (σ : Type uσ) (ε : Type uε) (π : Type uπ) (κ : Type uκ) where
  phase : ι → Phase σ π κ
  /-- The key `LEADER_KEY`. -/
  leader : Store Unit ℕ
  rows : Dict σ (Row π κ)
  /-- Every schedule ever created. -/
  created : List σ
  deletedProjects : List π
  editPhase : ε → EditPhase κ
  /-- The calls of `launch_dbt_run`, by the schedule and the due time they are for. -/
  launches : List (σ × ℕ)
  runs : List (Run σ)

inductive Event (ι : Type uι) (σ : Type uσ) (ε : Type uε) (π : Type uπ) (κ : Type uκ)
  | /-- `SET LEADER_KEY NX EX`. -/
    acquire (process : ι)
  | /-- `GET LEADER_KEY`. -/
    compare (process : ι)
  | /-- `EXPIRE LEADER_KEY`. -/
    refresh (process : ι)
  | /-- Redis is not available, and the process works without it. -/
    standIn (process : ι)
  | /-- A tick begins and takes the time from the clock of the process. -/
    beginTick (process : ι) (now : ℕ)
  | select (process : ι) (due : List (σ × Row π κ))
  | /-- The `UPDATE` of `next_run_at`. -/
    advance (process : ι)
  | /-- The `UPDATE` of `next_run_at` raises; whether it has been applied. -/
    failAdvance (process : ι) (applied : Bool)
  | /-- `launch_dbt_run`; whether it starts a run. -/
    launch (process : ι) (started : Bool)
  | /-- The `UPDATE` of `last_run_id` and `last_status`. -/
    record (process : ι)
  | /-- That `UPDATE` raises before it is applied. -/
    failRecord (process : ι)
  | endTick (process : ι)
  | /-- The loop catches what Redis or the database raised. -/
    fail (process : ι)
  | /-- The process is stopped, and deletes its lease or leaves it. -/
    stop (process : ι) (released : Bool)
  | create (edit : ε)
  | /-- `findUnique` of `updateSchedule`. -/
    readSchedule (edit : ε)
  | /-- `update` of `updateSchedule`. -/
    writeSchedule (edit : ε)
  | deleteSchedule (schedule : σ)
  | deleteProject (project : π)
  | /-- The row of a run is written, by the run or by anything else. -/
    writeRun (run : ℕ) (status : Summary)
  | /-- `run_command` has ended, and `_load_run_summary` reads the row. -/
    load (run : ℕ)
  | /-- `_record_outcome`. -/
    recordOutcome (run : ℕ)
  | /-- `_record_outcome` raises. -/
    failOutcome (run : ℕ)
  | /-- One second passes on the Redis server. -/
    second
  deriving DecidableEq

/-- A row the tick selects. -/
def State.IsDue (state : State ι σ ε π κ) (now : ℕ) (row : Row π κ) : Prop :=
  row.isActive ∧ row.project ∉ state.deletedProjects ∧ ∀ due ∈ row.nextRunAt, due ≤ now

/-- `ORDER BY next_run_at NULLS FIRST`. -/
def Row.NoLater (row other : Row π κ) : Prop :=
  ∀ due ∈ row.nextRunAt, ∃ later ∈ other.nextRunAt, due ≤ later

instance (row other : Row π κ) : Decidable (row.NoLater other) :=
  match hrow : row.nextRunAt, hother : other.nextRunAt with
  | none, _ => isTrue (by simp [Row.NoLater, hrow])
  | some _, none => isFalse (by simp [Row.NoLater, hrow, hother])
  | some due, some later =>
    decidable_of_iff (due ≤ later) (by simp [Row.NoLater, hrow, hother])

/-- What `_handle_due_schedule` does once the row is advanced: it launches a run
unless the cron cannot be parsed, the schedule had no due time, or the due time is
too old. -/
def afterAdvance (deployment : Deployment ι σ ε π κ) (now : ℕ) (schedule : σ)
    (row : Row π κ) (rest : List (σ × Row π κ)) : Phase σ π κ :=
  match deployment.nextFireTime row.cron now, row.nextRunAt with
  | some _, some due =>
    if isMisfire deployment.settings due now then .handling now rest
    else .launching now schedule due rest
  | _, _ => .handling now rest

section

variable [DecidableEq σ]

/-- An `UPDATE` of one row. -/
def State.updateRow (state : State ι σ ε π κ) (schedule : σ)
    (update : Row π κ → Row π κ) : Dict σ (Row π κ) :=
  match state.rows.get schedule with
  | some row => state.rows.set schedule (update row)
  | none => state.rows

/-- The rows after the `UPDATE` that advances a selected row. -/
def State.advanced (deployment : Deployment ι σ ε π κ) (state : State ι σ ε π κ) (now : ℕ)
    (schedule : σ) (selected : Row π κ) : Dict σ (Row π κ) :=
  state.updateRow schedule fun row =>
    { row with nextRunAt := deployment.nextFireTime selected.cron now }

end

/-- One change of a launched run. -/
def State.setRun (state : State ι σ ε π κ) (run : ℕ) (updated : Run σ) : State ι σ ε π κ :=
  { state with runs := state.runs.set run updated }

variable [DecidableEq ι] [DecidableEq σ] [DecidableEq ε] [DecidableEq π] [DecidableEq κ]

instance (state : State ι σ ε π κ) (now : ℕ) (row : Row π κ) : Decidable (state.IsDue now row) :=
  inferInstanceAs (Decidable (_ ∧ _ ∧ _))

def State.setPhase (state : State ι σ ε π κ) (process : ι) (phase : Phase σ π κ) :
    State ι σ ε π κ :=
  { state with phase := Function.update state.phase process phase }

/-- One step of the schedulers, the runs and the web app. -/
def step (deployment : Deployment ι σ ε π κ) (state : State ι σ ε π κ) :
    Event ι σ ε π κ → Option (State ι σ ε π κ)
  | .acquire process =>
    match state.phase process with
    | .idle =>
      match state.leader.setNxEx () (deployment.instanceId process)
          deployment.settings.schedulerLeaderTtl with
      | some leader => some { state.setPhase process .leading with leader := leader }
      | none => some (state.setPhase process .comparing)
    | _ => none
  | .compare process =>
    match state.phase process with
    | .comparing =>
      if state.leader.get () = some (deployment.instanceId process) then
        some (state.setPhase process .refreshing)
      else some (state.setPhase process .idle)
    | _ => none
  | .refresh process =>
    match state.phase process with
    | .refreshing =>
      some { state.setPhase process .leading with
        leader := state.leader.expire () deployment.settings.schedulerLeaderTtl }
    | _ => none
  | .standIn process =>
    match state.phase process with
    | .idle => some (state.setPhase process .leading)
    | _ => none
  | .beginTick process now =>
    match state.phase process with
    | .leading => some (state.setPhase process (.selecting now))
    | _ => none
  | .select process due =>
    match state.phase process with
    | .selecting now =>
      if due.Perm (state.rows.filter fun item => state.IsDue now item.2) ∧
          due.Pairwise fun item other => item.2.NoLater other.2 then
        some (state.setPhase process (.handling now due))
      else none
    | _ => none
  | .advance process =>
    match state.phase process with
    | .handling now ((schedule, row) :: rest) =>
      some { state.setPhase process (afterAdvance deployment now schedule row rest) with
        rows := state.advanced deployment now schedule row }
    | _ => none
  | .failAdvance process applied =>
    match state.phase process with
    | .handling now ((schedule, row) :: rest) =>
      some { state.setPhase process (.handling now rest) with
        rows := if applied then state.advanced deployment now schedule row else state.rows }
    | _ => none
  | .launch process started =>
    match state.phase process with
    | .launching now schedule dueAt rest =>
      if started then
        some { state.setPhase process (.recording now schedule state.runs.length rest) with
          launches := state.launches ++ [(schedule, dueAt)]
          runs := state.runs ++ [⟨schedule, .executing, some .running⟩] }
      else
        some { state.setPhase process (.handling now rest) with
          launches := state.launches ++ [(schedule, dueAt)] }
    | _ => none
  | .record process =>
    match state.phase process with
    | .recording now schedule run rest =>
      some { state.setPhase process (.handling now rest) with
        rows := state.updateRow schedule fun row =>
          { row with lastRunId := some run, lastStatus := some (some .running) } }
    | _ => none
  | .failRecord process =>
    match state.phase process with
    | .recording now _ _ rest => some (state.setPhase process (.handling now rest))
    | _ => none
  | .endTick process =>
    match state.phase process with
    | .handling _ [] => some (state.setPhase process .idle)
    | _ => none
  | .fail process =>
    match state.phase process with
    | .comparing | .refreshing | .selecting _ => some (state.setPhase process .idle)
    | _ => none
  | .stop process released =>
    some { state.setPhase process .stopped with
      leader :=
        if released then state.leader.delIf () (deployment.instanceId process)
        else state.leader }
  | .create edit =>
    if state.editPhase edit = .idle ∧ (deployment.edit edit).schedule ∉ state.created then
      some { state with
        rows := state.rows.set (deployment.edit edit).schedule
          { project := (deployment.edit edit).project
            cron := (deployment.edit edit).cron
            isActive := (deployment.edit edit).isActive }
        created := (deployment.edit edit).schedule :: state.created
        editPhase := Function.update state.editPhase edit .finished }
    else none
  | .readSchedule edit =>
    match state.editPhase edit, state.rows.get (deployment.edit edit).schedule with
    | .idle, some row =>
      some { state with
        editPhase := Function.update state.editPhase edit (.editing row.cron row.nextRunAt) }
    | _, _ => none
  | .writeSchedule edit =>
    match state.editPhase edit with
    | .editing cron nextRunAt =>
      some { state with
        rows := state.updateRow (deployment.edit edit).schedule fun row =>
          { row with
            project := (deployment.edit edit).project
            cron := (deployment.edit edit).cron
            isActive := (deployment.edit edit).isActive
            nextRunAt := if cron = (deployment.edit edit).cron then nextRunAt else none }
        editPhase := Function.update state.editPhase edit .finished }
    | _ => none
  | .deleteSchedule schedule => some { state with rows := state.rows.pop schedule }
  | .deleteProject project =>
    some { state with deletedProjects := project :: state.deletedProjects }
  | .writeRun run status =>
    match state.runs[run]? with
    | some current => some (state.setRun run { current with status := status })
    | none => none
  | .load run =>
    match state.runs[run]? with
    | some ⟨schedule, .executing, status⟩ =>
      some (state.setRun run ⟨schedule, .completing status, status⟩)
    | _ => none
  | .recordOutcome run =>
    match state.runs[run]? with
    | some ⟨schedule, .completing summary, status⟩ =>
      some { state.setRun run ⟨schedule, .finished, status⟩ with
        rows := state.updateRow schedule fun row => { row with lastStatus := some summary } }
    | _ => none
  | .failOutcome run =>
    match state.runs[run]? with
    | some ⟨schedule, .completing _, status⟩ =>
      some (state.setRun run ⟨schedule, .finished, status⟩)
    | _ => none
  | .second => some { state with leader := state.leader.elapse }

/-- No schedule yet. -/
def machine (deployment : Deployment ι σ ε π κ) :
    Machine (State ι σ ε π κ) (Event ι σ ε π κ) where
  init := {
    phase := fun _ => .idle
    leader := .empty
    rows := []
    created := []
    deletedProjects := []
    editPhase := fun _ => .idle
    launches := []
    runs := [] }
  step := step deployment

end DbtCraft.Services.Scheduler

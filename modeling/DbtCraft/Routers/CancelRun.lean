/-
# Cancelling a run by its id

`cancel_dbt_run` of `app/routers/dbt.py` together with everything it acts on: the
rows of one project's runs, the project's lock (`FileLock`), and the children the
runs start (`Command`). The endpoint names a row; the marker it sets, the child
it signals and the lock key it deletes belong to the project. A run's row is
`running` while the run still waits for a slot or for the lock.

A run starts up to three children, one after the other, inside its locked body.
The body ends after the child it awaits; the ends that leave a child behind are
the subject of `Orphans`.
-/

import DbtCraft.Core.FileLock
import DbtCraft.Services.Command
import DbtCraft.Services.RunOutcome

namespace DbtCraft.Routers.CancelRun

open DbtCraft.Math DbtCraft.Core DbtCraft.Services DbtCraft.Services.RunOutcome

universe uω uρ uα uκ

/-- One project: `ω` are workers, `ρ` runs, `α` the children of runs and `κ` the
requests to cancel a run. -/
structure Project (ω : Type uω) (ρ : Type uρ) (α : Type uα) (κ : Type uκ) where
  settings : Settings
  runner : ρ → Command.Runner
  worker : ρ → ω
  owner : α → ρ
  runOf : κ → ρ
  cancelWorker : κ → ω

variable {ω : Type uω} {ρ : Type uρ} {α : Type uα} {κ : Type uκ}

/-- The children and cancels of a project share its process id. -/
def Project.deployment (project : Project ω ρ α κ) : Command.Deployment Unit ω α κ where
  runner child := project.runner (project.owner child)
  processId _ := ()
  worker child := project.worker (project.owner child)
  target _ := ()
  cancelWorker := project.cancelWorker

/-- The runs of a project share its run lock. -/
def Project.callers (project : Project ω ρ α κ) (run : ρ) : FileLock.Caller :=
  match project.runner run with
  | .runCancellable => .runCommand
  | .streaming => .streamDbt

/-- Where one call of the endpoint is. -/
inductive Endpoint
  | idle
  | /-- In `CommandService.cancel`, or before `force_release`. -/
    cancelling
  | finished
  deriving DecidableEq

structure State (ω : Type uω) (ρ : Type uρ) (α : Type uα) (κ : Type uκ) where
  lock : FileLock.State ρ
  command : Command.State Unit ω α κ
  row : ρ → Option RunStatus
  /-- The child a run awaits. -/
  current : ρ → Option α
  endpoint : κ → Endpoint

inductive Event (ρ : Type uρ) (α : Type uα) (κ : Type uκ)
  | /-- `_insert_run_start`. -/
    insert (run : ρ)
  | /-- A step of a run, or of another endpoint, on the lock. -/
    lock (event : FileLock.Event ρ)
  | /-- A step of a child, or of the `CommandService.cancel` of a request. -/
    command (event : Command.Event Unit α κ)
  | /-- The endpoint loads its row and finds it `pending` or `running`. -/
    request (cancel : κ)
  | /-- The endpoint's `force_release`. -/
    forceRelease (cancel : κ)
  | /-- The run of a child writes its status. -/
    record (child : α)
  | /-- One second passes on the Redis server. -/
    tick
  deriving DecidableEq

/-- The status a run writes on the report of its child. -/
def reportStatus : Command.Runner → Command.Report → RunStatus
  | .runCancellable, .exited returncode => if returncode = 0 then .success else .error
  | .runCancellable, _ => .error
  | .streaming, .exited returncode =>
    if returncode = -1 then .cancelled else if returncode = 0 then .success else .error
  | .streaming, .timedOut => .error
  | .streaming, .markerSeen | .streaming, .taskCancelled => .cancelled

variable [DecidableEq ω] [DecidableEq ρ] [DecidableEq α] [DecidableEq κ]

/-- The events of the lock that a run or another endpoint takes. -/
def State.LockAdmits (state : State ω ρ α κ) : FileLock.Event ρ → Prop
  | .leave run _ => state.current run = none
  | .cancelRun _ | .tick => False
  | _ => True

/-- The events of the children and of `CommandService.cancel` in their place. -/
def State.CommandAdmits (project : Project ω ρ α κ) (state : State ω ρ α κ) :
    Command.Event Unit α κ → Prop
  | .start child _ =>
    state.lock.phase (project.owner child) = .inside ∧
      state.current (project.owner child) = none
  | .mark cancel _ | .terminate cancel | .reap cancel | .unregister cancel _ =>
    state.endpoint cancel = .cancelling
  | .tick => False
  | _ => True

instance (state : State ω ρ α κ) (event : FileLock.Event ρ) :
    Decidable (state.LockAdmits event) := by
  cases event <;> unfold State.LockAdmits <;> infer_instance

instance (project : Project ω ρ α κ) (state : State ω ρ α κ)
    (event : Command.Event Unit α κ) : Decidable (state.CommandAdmits project event) := by
  cases event <;> unfold State.CommandAdmits <;> infer_instance

/-- The child each run awaits after an event of the children. -/
def State.awaited (project : Project ω ρ α κ) (state : State ω ρ α κ) :
    Command.Event Unit α κ → ρ → Option α
  | .start child _ => Function.update state.current (project.owner child) (some child)
  | .close child _ => Function.update state.current (project.owner child) none
  | _ => state.current

/-- One atomic step of a project's runs and of the requests to cancel them. -/
def step (project : Project ω ρ α κ) (state : State ω ρ α κ) :
    Event ρ α κ → Option (State ω ρ α κ)
  | .insert run =>
    if state.row run = none then
      some { state with row := Function.update state.row run (some .running) }
    else none
  | .lock event =>
    if state.LockAdmits event then
      (FileLock.step project.callers project.settings state.lock event).map fun lock =>
        { state with lock := lock }
    else none
  | .command event =>
    if state.CommandAdmits project event then
      (Command.step project.deployment state.command event).map fun command =>
        { state with command := command, current := state.awaited project event }
    else none
  | .request cancel =>
    if state.endpoint cancel = .idle ∧
        (state.row (project.runOf cancel) = some .pending ∨
          state.row (project.runOf cancel) = some .running) then
      some { state with endpoint := Function.update state.endpoint cancel .cancelling }
    else none
  | .forceRelease cancel =>
    if state.endpoint cancel = .cancelling ∧ state.command.cancelPhase cancel = .finished then
      (FileLock.step project.callers project.settings state.lock
        (.cancelRun (project.runOf cancel))).map fun lock =>
          { state with
            lock := lock
            endpoint := Function.update state.endpoint cancel .finished }
    else none
  | .record child =>
    match state.command.phase child with
    | .finished report =>
      if state.row (project.owner child) = some .running then
        some { state with
          row := Function.update state.row (project.owner child)
            (some (reportStatus (project.runner (project.owner child)) report)) }
      else none
    | _ => none
  | .tick =>
    (FileLock.step project.callers project.settings state.lock .tick).bind fun lock =>
      (Command.step project.deployment state.command .tick).map fun command =>
        { state with lock := lock, command := command }

/-- No run and no request. -/
def machine (project : Project ω ρ α κ) : Machine (State ω ρ α κ) (Event ρ α κ) where
  init := {
    lock := (FileLock.machine project.callers project.settings).init
    command := (Command.machine project.deployment).init
    row := fun _ => none
    current := fun _ => none
    endpoint := fun _ => .idle }
  step := step project

end DbtCraft.Routers.CancelRun

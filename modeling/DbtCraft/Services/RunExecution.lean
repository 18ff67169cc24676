/-
# How a run executes its command

The runs of one project beside its other requests: every request regenerates
`profiles.yml` first and releases the project's warm workers for it
(`_regenerate_profiles_from_db`), and a run then takes the run lock and executes
its command in a warm worker (`_run_dbt_command`), in a subprocess when the
worker fails, and again, up to three times, on a conflicting DuckDB lock
(`DbtService.run_command`). A run over SSE executes it once, in a subprocess.

The worker pool is that of `WarmPool` with the tasks of this project, the lock is
that of `FileLock`.
-/

import DbtCraft.Core.FileLock
import DbtCraft.Services.WarmPool
import Mathlib.Data.Int.Notation

namespace DbtCraft.Services.RunExecution

open DbtCraft.Math DbtCraft.Core

universe uρ uα

/-- What a call on the worker pool is for. -/
inductive Purpose (ρ : Type uρ)
  | /-- The command of a run. -/
    attempt (run : ρ)
  | /-- The command of another request: a compile, a preview, a query. -/
    command
  | /-- The release before a request writes `profiles.yml`. -/
    regeneration (request : ρ)
  | /-- The release of `cancel_process`. -/
    stop
  deriving DecidableEq

/-- One project: `ρ` are requests and `α` their calls on the worker pool. -/
structure Project (ρ : Type uρ) (α : Type uα) where
  settings : Settings
  caller : ρ → FileLock.Caller
  purpose : α → Purpose ρ

variable {ρ : Type uρ} {α : Type uα}

/-- `run_command` and `stream_dbt`. -/
def Project.IsRun (project : Project ρ α) (request : ρ) : Prop :=
  project.caller request = .runCommand ∨ project.caller request = .streamDbt

instance (project : Project ρ α) (request : ρ) : Decidable (project.IsRun request) :=
  inferInstanceAs (Decidable (_ ∨ _))

def Project.pools (project : Project ρ α) : WarmPool.Deployment Unit α where
  settings := project.settings
  job task :=
    match project.purpose task with
    | .attempt _ | .command => .run ()
    | .regeneration _ => .release () false
    | .stop => .release () true

/-- Where a request is with its profile. -/
inductive Regeneration
  | idle
  | /-- In `_regenerate_profiles_from_db`; whether there is a profile to write. -/
    regenerating (rewrites : Bool)
  | finished
  deriving DecidableEq

/-- An exception out of a call on the worker pool. -/
inductive Failure
  | /-- `DbtWarmWorkerError` or `TimeoutError`. -/
    worker
  | cancelled
  | other
  deriving DecidableEq

/-- How a call of `worker_pool.run` ends. -/
inductive Outcome
  | returned (returncode : ℤ) (conflict : Bool)
  | raised (failure : Failure)
  deriving DecidableEq

/-- One execution of a run's command, and how it ended. -/
inductive Execution
  | running
  | returned (returncode : ℤ)
  | /-- The worker ended, hung or sent too much. -/
    failed
  | /-- The worker was stopped under it by a call of `release_project`. -/
    stopped
  | /-- The run's own task was cancelled. -/
    cancelled
  deriving DecidableEq

/-- Where a run is inside the lock. -/
inductive Body (α : Type uα)
  | /-- Before this attempt. -/
    ready (attempt : ℕ)
  | /-- In `worker_pool.run`, called under this cancellation epoch. -/
    inWorker (attempt : ℕ) (task : α) (epoch : ℕ)
  | inSubprocess (attempt : ℕ)
  | ended
  deriving DecidableEq

structure State (ρ : Type uρ) (α : Type uα) where
  lock : FileLock.State ρ
  pool : WarmPool.State Unit α
  regeneration : ρ → Regeneration
  /-- The last request that wrote `profiles.yml`. -/
  profile : Option ρ
  body : ρ → Body α
  /-- How the calls on the pool ended, as far as they have. -/
  outcome : α → Option Outcome
  executions : ρ → List Execution
  /-- The workers whose process `release_project` ended. -/
  stopped : Finset WarmPool.Worker

inductive Event (ρ : Type uρ) (α : Type uα)
  | lock (event : FileLock.Event ρ)
  | /-- A request enters `_regenerate_profiles_from_db`. -/
    regenerate (request : ρ) (rewrites : Bool)
  | /-- It writes `profiles.yml`. -/
    write (request : ρ)
  | /-- It ends without a write. -/
    skip (request : ρ)
  | /-- A step of the worker pool. -/
    pool (event : WarmPool.Event Unit α)
  | /-- The response of a worker arrives. -/
    complete (task : α) (returncode : ℤ) (conflict : Bool)
  | /-- A call on the pool raises where it is, or goes on with this exception. -/
    fail (event : WarmPool.Event Unit α) (failure : Failure)
  | /-- A run calls `worker_pool.run`. -/
    attempt (run : ρ) (task : α)
  | /-- The call has ended. -/
    resume (run : ρ) (task : α)
  | /-- A run over SSE starts its subprocess. -/
    stream (run : ρ)
  | subprocessExit (run : ρ) (returncode : ℤ) (conflict : Bool)
  | /-- A run is cancelled outside a command. -/
    abort (run : ρ)
  deriving DecidableEq

/-- The task whose call ends, or changes course, with an exception. -/
def failing : WarmPool.Event Unit α → Option α
  | .giveUp task | .queueTimeout task | .interrupt task => some task
  | _ => none

/-- The steps of the pool that say nothing about how a call ends. -/
def silent : WarmPool.Event Unit α → Bool
  | .complete _ | .giveUp _ | .queueTimeout _ | .interrupt _ => false
  | _ => true

/-- The worker that a step of the pool stops by `release_project`. -/
def State.stopping (state : State ρ α) : WarmPool.Event Unit α → Option WarmPool.Worker
  | .stopWorker task =>
    match state.pool.phase task with
    | .releasing pool index => (state.pool.pool pool).workers[index]?
    | _ => none
  | _ => none

/-- The worker that a step of the pool starts. -/
def State.starting (state : State ρ α) : WarmPool.Event Unit α → Option WarmPool.Worker
  | .spawn task =>
    match state.pool.phase task with
    | .preparing _ worker | .restarting _ worker => some worker
    | _ => none
  | _ => none

/-- The tasks on the pool act while their request has called them. -/
def State.Called (project : Project ρ α) (state : State ρ α) (task : α) : Prop :=
  match project.purpose task with
  | .attempt run =>
    match state.body run with
    | .inWorker _ current _ => current = task
    | _ => False
  | .regeneration request => state.regeneration request = .regenerating true
  | .command | .stop => True

/-- The workers stopped by `release_project` and not started again. -/
def State.stoppedAfter (state : State ρ α) (event : WarmPool.Event Unit α) :
    Finset WarmPool.Worker :=
  match state.stopping event with
  | some worker => if worker ∈ state.pool.live then insert worker state.stopped else state.stopped
  | none =>
    match state.starting event with
    | some worker => state.stopped.erase worker
    | none => state.stopped

/-- The last execution of a run has ended. -/
def State.conclude [DecidableEq ρ] (state : State ρ α) (run : ρ) (ended : Execution) :
    ρ → List Execution :=
  Function.update state.executions run ((state.executions run).dropLast ++ [ended])

/-- One more execution of a run's command has started. -/
def State.launch [DecidableEq ρ] (state : State ρ α) (run : ρ) : ρ → List Execution :=
  Function.update state.executions run (state.executions run ++ [Execution.running])

/-- How the execution ends when `worker.run` raises. -/
def State.endOf (state : State ρ α) (worker : WarmPool.Worker) : Failure → Execution
  | .cancelled => .cancelled
  | .worker | .other => if worker ∈ state.stopped then .stopped else .failed

/-- The executions of the runs after a step of the pool. -/
def State.executionsAfter [DecidableEq ρ] (project : Project ρ α) (state : State ρ α) :
    WarmPool.Event Unit α → ρ → List Execution
  | .submit task =>
    match project.purpose task with
    | .attempt run => state.launch run
    | _ => state.executions
  | _ => state.executions

/-- The executions of the runs after an exception. -/
def State.executionsOnFailure [DecidableEq ρ] (project : Project ρ α) (state : State ρ α)
    (task : α) (failure : Failure) : ρ → List Execution :=
  match project.purpose task, state.pool.phase task with
  | .attempt run, .executing _ worker => state.conclude run (state.endOf worker failure)
  | _, _ => state.executions

/-- The retry loop: three attempts, and another one only on a conflicting lock. -/
def Body.settle (attempt : ℕ) (returncode : ℤ) (conflict : Bool) : Body α :=
  if returncode ≠ 0 ∧ conflict ∧ attempt < 2 then .ready (attempt + 1) else .ended

variable [DecidableEq ρ] [DecidableEq α]

instance (project : Project ρ α) (state : State ρ α) (task : α) :
    Decidable (state.Called project task) := by
  unfold State.Called
  split
  · split <;> infer_instance
  · infer_instance
  · infer_instance
  · infer_instance

/-- The events of the lock in their place. -/
def State.LockAdmits (project : Project ρ α) (state : State ρ α) : FileLock.Event ρ → Prop
  | .enter request | .cancelEntering request => state.regeneration request = .finished
  | .leave request _ => project.IsRun request → state.body request = .ended
  | _ => True

instance (project : Project ρ α) (state : State ρ α) :
    (event : FileLock.Event ρ) → Decidable (state.LockAdmits project event)
  | .enter request | .cancelEntering request =>
    inferInstanceAs (Decidable (state.regeneration request = .finished))
  | .leave request _ =>
    inferInstanceAs (Decidable (project.IsRun request → state.body request = .ended))
  | .attempt _ | .renew _ | .release _ | .cancelWaiting _ _ | .cancelRelease _ _ | .unwind _
  | .cancelUnwinding _ | .forceRelease _ | .cancelHandler _ | .cancelRun _ | .cancelProcess _
  | .scanStale _ _ | .deleteStale _ _ | .tick => isTrue trivial

/-- One step of the requests of a project. -/
def step (project : Project ρ α) (state : State ρ α) : Event ρ α → Option (State ρ α)
  | .lock event =>
    if state.LockAdmits project event then
      (FileLock.step project.caller project.settings state.lock event).map fun lock =>
        { state with lock := lock }
    else none
  | .regenerate request rewrites =>
    if state.regeneration request = .idle then
      some { state with
        regeneration := Function.update state.regeneration request (.regenerating rewrites) }
    else none
  | .write request =>
    if state.regeneration request = .regenerating true then
      some { state with
        regeneration := Function.update state.regeneration request .finished
        profile := some request }
    else none
  | .skip request =>
    match state.regeneration request with
    | .regenerating _ =>
      some { state with regeneration := Function.update state.regeneration request .finished }
    | _ => none
  | .pool event =>
    if silent event ∧ ∀ task ∈ event.actor, state.Called project task then
      (WarmPool.step project.pools state.pool event).map fun pool =>
        { state with
          pool := pool
          executions := state.executionsAfter project event
          stopped := state.stoppedAfter event }
    else none
  | .complete task returncode conflict =>
    if state.Called project task then
      (WarmPool.step project.pools state.pool (.complete task)).map fun pool =>
        { state with
          pool := pool
          outcome := Function.update state.outcome task (some (.returned returncode conflict))
          executions :=
            match project.purpose task with
            | .attempt run => state.conclude run (.returned returncode)
            | _ => state.executions }
    else none
  | .fail event failure =>
    match failing event with
    | some task =>
      if state.Called project task then
        (WarmPool.step project.pools state.pool event).map fun pool =>
          { state with
            pool := pool
            outcome := Function.update state.outcome task (some (.raised failure))
            executions := state.executionsOnFailure project task failure }
      else none
    | none => none
  | .attempt run task =>
    match state.body run with
    | .ready attempt =>
      if project.caller run = .runCommand ∧ state.lock.phase run = .inside ∧
          project.purpose task = .attempt run ∧ state.pool.phase task = .idle then
        some { state with
          body := Function.update state.body run
            (.inWorker attempt task (state.pool.cancellations ())) }
      else none
    | _ => none
  | .resume run task =>
    match state.body run, state.outcome task with
    | .inWorker attempt current epoch, some outcome =>
      if current = task ∧ state.pool.phase task = .finished then
        match outcome with
        | .returned returncode conflict =>
          some { state with
            body := Function.update state.body run (.settle attempt returncode conflict) }
        | .raised .worker =>
          if state.pool.cancellations () ≠ epoch then
            -- `-1` and "Cancelled by user".
            some { state with body := Function.update state.body run .ended }
          else
            some { state with
              body := Function.update state.body run (.inSubprocess attempt)
              executions := state.launch run }
        | .raised _ => some { state with body := Function.update state.body run .ended }
      else none
    | _, _ => none
  | .stream run =>
    if state.body run = .ready 0 ∧ project.caller run = .streamDbt ∧
        state.lock.phase run = .inside then
      some { state with
        body := Function.update state.body run (.inSubprocess 0)
        executions := state.launch run }
    else none
  | .subprocessExit run returncode conflict =>
    match state.body run with
    | .inSubprocess attempt =>
      some { state with
        body := Function.update state.body run
          (if project.caller run = .streamDbt then .ended
            else .settle attempt returncode conflict)
        executions := state.conclude run (.returned returncode) }
    | _ => none
  | .abort run =>
    match state.body run with
    | .ready _ => some { state with body := Function.update state.body run .ended }
    | _ => none

/-- No request yet. -/
def machine (project : Project ρ α) : Machine (State ρ α) (Event ρ α) where
  init := {
    lock := (FileLock.machine project.caller project.settings).init
    pool := (WarmPool.machine project.pools).init
    regeneration := fun _ => .idle
    profile := none
    body := fun _ => .ready 0
    outcome := fun _ => none
    executions := fun _ => []
    stopped := ∅ }
  step := step project

end DbtCraft.Services.RunExecution

/-
# Cancellable commands

`CommandService` in `app/services/command.py` and the streaming runner of
`app/routers/sse.py`. Both start a child process under a process id, track it in
the worker's own table and in Redis, wait for it, and only then look at the
cancel marker of the process id. `CommandService.cancel` sets the marker, signals
the child if this worker has one, and clears the tracking.

The marker's value in Redis is the text `1`. Here it is the cancel call that set
it, which nothing in the code reads: it names the cancel a marker stems from.
-/

import DbtCraft.Math.Machine
import DbtCraft.Redis.Store
import Mathlib.Data.Int.Notation

namespace DbtCraft.Services.Command

open DbtCraft.Math DbtCraft.Redis

universe uπ uω uρ uκ

/-- The two functions that run a child under a process id. -/
inductive Runner
  | runCancellable
  | streaming
  deriving DecidableEq

/-- How a runner ended: both encode all but the first as return code `-1` or an
exception. -/
inductive Report
  | /-- `process.returncode or 0`. -/
    exited (returncode : ℤ)
  | /-- The cancel marker was seen after the child exited. -/
    markerSeen
  | /-- `dbt_subprocess_timeout` passed (`run_cancellable` only). -/
    timedOut
  | /-- The task of the request was cancelled. -/
    taskCancelled
  deriving DecidableEq

/-- Where one run is. -/
inductive Phase
  | idle
  | /-- The child was started and tracked; `exit` is its code once it ended. -/
    running (exit : Option ℤ)
  | /-- In the `finally` block, before `_unregister_process`. -/
    closing (report : Report)
  | finished (report : Report)
  deriving DecidableEq

/-- Where one call of `CommandService.cancel` is. -/
inductive CancelPhase (ρ : Type uρ)
  | idle
  | marked
  | /-- `terminate()` was sent to this run's child; sleeping half a second. -/
    terminating (run : ρ)
  | /-- Before `_unregister_process`. -/
    unregistering
  | finished
  deriving DecidableEq

/-- Who runs what where: `π` are process ids, `ω` workers, `ρ` runs and `κ`
calls of `cancel`. -/
structure Deployment (π : Type uπ) (ω : Type uω) (ρ : Type uρ) (κ : Type uκ) where
  runner : ρ → Runner
  processId : ρ → π
  worker : ρ → ω
  target : κ → π
  cancelWorker : κ → ω

/-- The Redis keys `running_process:{id}` and `running_process:{id}:cancelled`,
the workers' `_local_processes`, and the runs and cancels in progress. -/
structure State (π : Type uπ) (ω : Type uω) (ρ : Type uρ) (κ : Type uκ) where
  registered : Store π ω
  cancelled : Store π κ
  localProcesses : ω → π → Option ρ
  phase : ρ → Phase
  cancelPhase : κ → CancelPhase ρ

/-- The atomic steps. A Redis command of `CommandService` that fails is logged
and skipped, which `stored` and `answered` record. -/
inductive Event (π : Type uπ) (ρ : Type uρ) (κ : Type uκ)
  | /-- The child starts and is tracked. -/
    start (run : ρ) (stored : Bool)
  | /-- The child ends by itself or by a signal. -/
    childExit (run : ρ) (returncode : ℤ)
  | /-- The child ended: `_is_cancelled`. -/
    check (run : ρ) (answered : Bool)
  | /-- `run_cancellable` kills a child that ran too long. -/
    timeout (run : ρ)
  | /-- The request's task is cancelled; the child is terminated and awaited. -/
    cancelTask (run : ρ)
  | /-- `_unregister_process` at the end of a run. -/
    close (run : ρ) (stored : Bool)
  | /-- `_mark_cancelled`. -/
    mark (cancel : κ) (stored : Bool)
  | /-- `terminate()` on the child this worker tracks, if it tracks one. -/
    terminate (cancel : κ)
  | /-- Half a second later: `kill()` if it still runs, and stop tracking it. -/
    reap (cancel : κ)
  | /-- `_unregister_process` at the end of a cancel. -/
    unregister (cancel : κ) (stored : Bool)
  | /-- A starting worker deletes the registration of a process id. -/
    clearRegistered (processId : π)
  | /-- A starting worker deletes the marker of a process id. -/
    clearCancelled (processId : π)
  | /-- One second passes on the Redis server. -/
    tick
  deriving DecidableEq

/-- The TTL of a registration, in seconds. -/
def registrationTtl : ℕ := 300

/-- The TTL of a cancel marker, in seconds. -/
def markerTtl : ℕ := 60

variable {π : Type uπ} {ω : Type uω} {ρ : Type uρ} {κ : Type uκ}
  [DecidableEq π] [DecidableEq ω] [DecidableEq ρ] [DecidableEq κ]

def State.setPhase (state : State π ω ρ κ) (run : ρ) (phase : Phase) : State π ω ρ κ :=
  { state with phase := Function.update state.phase run phase }

def State.setCancelPhase (state : State π ω ρ κ) (cancel : κ) (phase : CancelPhase ρ) :
    State π ω ρ κ :=
  { state with cancelPhase := Function.update state.cancelPhase cancel phase }

/-- `_local_processes[process_id] = …`, or its removal. -/
def State.track (state : State π ω ρ κ) (worker : ω) (processId : π) (run : Option ρ) :
    State π ω ρ κ :=
  { state with
    localProcesses := Function.update state.localProcesses worker
      (Function.update (state.localProcesses worker) processId run) }

/-- The start of the `finally` block: the run is no longer tracked. -/
def State.conclude (deployment : Deployment π ω ρ κ) (state : State π ω ρ κ) (run : ρ)
    (report : Report) : State π ω ρ κ :=
  (state.track (deployment.worker run) (deployment.processId run) none).setPhase run
    (.closing report)

/-- The result of `_is_cancelled`: a failing Redis counts as not cancelled. -/
def State.isCancelled (state : State π ω ρ κ) (processId : π) (answered : Bool) : Bool :=
  answered && (state.cancelled.get processId).isSome

/-- One atomic step of the runs and cancels of a deployment. -/
def step (deployment : Deployment π ω ρ κ) (state : State π ω ρ κ) :
    Event π ρ κ → Option (State π ω ρ κ)
  | .start run stored =>
    if state.phase run = .idle then
      let tracked := state.track (deployment.worker run) (deployment.processId run) (some run)
      some { tracked.setPhase run (.running none) with
        registered :=
          if stored then
            state.registered.setEx (deployment.processId run) (deployment.worker run)
              registrationTtl
          else state.registered }
    else none
  | .childExit run returncode =>
    if state.phase run = .running none then
      some (state.setPhase run (.running (some returncode)))
    else none
  | .check run answered =>
    match state.phase run with
    | .running (some returncode) =>
      some (state.conclude deployment run
        (if state.isCancelled (deployment.processId run) answered then .markerSeen
          else .exited returncode))
    | _ => none
  | .timeout run =>
    match state.phase run, deployment.runner run with
    | .running _, .runCancellable => some (state.conclude deployment run .timedOut)
    | _, _ => none
  | .cancelTask run =>
    match state.phase run with
    | .running _ => some (state.conclude deployment run .taskCancelled)
    | _ => none
  | .close run stored =>
    match state.phase run with
    | .closing report =>
      some { state.setPhase run (.finished report) with
        registered :=
          if stored then state.registered.del (deployment.processId run) else state.registered }
    | _ => none
  | .mark cancel stored =>
    if state.cancelPhase cancel = .idle then
      some { state.setCancelPhase cancel .marked with
        cancelled :=
          if stored then state.cancelled.setEx (deployment.target cancel) cancel markerTtl
          else state.cancelled }
    else none
  | .terminate cancel =>
    if state.cancelPhase cancel = .marked then
      some (state.setCancelPhase cancel
        (match state.localProcesses (deployment.cancelWorker cancel) (deployment.target cancel)
          with
        | some run => .terminating run
        | none => .unregistering))
    else none
  | .reap cancel =>
    match state.cancelPhase cancel with
    | .terminating _ =>
      -- The entry is popped by process id, whichever run it tracks by now.
      some ((state.track (deployment.cancelWorker cancel) (deployment.target cancel)
        none).setCancelPhase cancel .unregistering)
    | _ => none
  | .unregister cancel stored =>
    if state.cancelPhase cancel = .unregistering then
      some { state.setCancelPhase cancel .finished with
        registered :=
          if stored then state.registered.del (deployment.target cancel) else state.registered }
    else none
  | .clearRegistered processId =>
    some { state with registered := state.registered.del processId }
  | .clearCancelled processId =>
    some { state with cancelled := state.cancelled.del processId }
  | .tick =>
    some { state with
      registered := state.registered.elapse
      cancelled := state.cancelled.elapse }

/-- Nothing has run and nothing was cancelled. -/
def machine (deployment : Deployment π ω ρ κ) :
    Machine (State π ω ρ κ) (Event π ρ κ) where
  init := ⟨.empty, .empty, fun _ _ => none, fun _ => .idle, fun _ => .idle⟩
  step := step deployment

end DbtCraft.Services.Command

/-
# The life of a run's row

A dbt run is one row of `dbt_runs`, inserted as `running` and completed by the
coroutine that executes the run: `stream_dbt` with its `_SseRunPersistence`, or
`DbtService.run_command`, either awaited by its endpoint or started by
`launch_dbt_run` inside `_run_in_background`. This machine follows one row and
that coroutine through every point at which the coroutine is suspended, and every
way it can be resumed there. An `UPDATE` and its commit are one point: a
cancellation there may come before or after the database applied it.

The database does not fail. What the run itself does is the subject of other
modules; here it ends with a return code or an exception.
-/

import DbtCraft.Math.Machine
import DbtCraft.Services.RunOutcome

namespace DbtCraft.Services.RunLifecycle

open DbtCraft.Math DbtCraft.Services.RunOutcome

/-- Which coroutine executes the run. -/
inductive Mode
  | /-- `stream_dbt`. -/
    sse
  | /-- `run_command`, awaited by its endpoint. -/
    sync
  | /-- `run_command` inside `_run_in_background`. -/
    background
  deriving DecidableEq

/-- Which code writes a terminal status. -/
inductive Source
  | /-- The end of the normal path. -/
    body
  | /-- `except asyncio.CancelledError`; in `stream_dbt` the write is shielded. -/
    cancelHandler
  | /-- `except Exception` of `stream_dbt`, `except TimeoutError` of `run_command`. -/
    errorHandler
  | /-- `except Exception` of `_run_in_background`. -/
    recovery
  deriving DecidableEq

/-- Where the coroutine is suspended. -/
inductive Phase
  | /-- `_insert_run_start`, at its commit. -/
    inserting
  | /-- The row is there, and the response is not iterated or the background task
    not started yet. -/
    launched
  | /-- `run_command` before its `try`. -/
    prelude
  | /-- `stream_dbt` at the `yield` of its first event. -/
    opening
  | /-- At an `await` of the `try` body: a slot, the lock, the dbt command. -/
    working
  | /-- `stream_dbt` at the `yield` of an output line. -/
    yielding
  | /-- `run_command` in `force_release`. -/
    releasing
  | /-- `_update_run_complete`, up to its commit. -/
    updating (source : Source) (status : RunStatus)
  | /-- Past the commit, inserting artifacts. -/
    settling (source : Source)
  | /-- `stream_dbt` at the `yield` of its last event. -/
    closing
  | ended
  deriving DecidableEq

structure State where
  row : Option RunStatus
  phase : Phase
  /-- `_SseRunPersistence.persisted`. -/
  persisted : Bool
  /-- The generator ended, and the write it shielded goes on. -/
  pending : Bool
  deriving DecidableEq

inductive Event
  | inserted
  | /-- The task is cancelled at the commit of the insert. -/
    cancelInsert (applied : Bool)
  | start
  | prepared
  | /-- The response asks `stream_dbt` for its next event. -/
    resume
  | /-- `stream_dbt` has a line to send. -/
    emit
  | /-- The body ends with the return code of dbt. -/
    finish (returncode : ℤ)
  | /-- The body ends with `TimeoutError`. -/
    timeout
  | /-- Any other exception, a refused slot among them. -/
    raise
  | /-- `CancelledError` at the current `await`; in an update `applied` tells
    whether the database still committed. -/
    cancel (applied : Bool)
  | /-- The generator is closed at a `yield`. -/
    close
  | released
  | committed
  | settled
  | /-- The shielded write commits after its generator ended. -/
    shieldedCommit
  | /-- A starting runner marks every `running` row as cancelled. -/
    reconcile
  deriving DecidableEq

/-- The statuses a finished run has. -/
def Terminal (status : RunStatus) : Prop :=
  status = .success ∨ status = .error ∨ status = .cancelled

instance (status : RunStatus) : Decidable (Terminal status) :=
  inferInstanceAs (Decidable (_ ∨ _ ∨ _))

/-- The status of a return code, as both coroutines decode it at the end of their
normal path. -/
def statusOf (returncode : ℤ) : RunStatus :=
  if returncode = 0 then .success else .error

/-- A call of `_update_run_complete`; `persist_complete` skips it once it has
persisted. -/
def State.update (state : State) (source : Source) (status : RunStatus) : State :=
  if state.persisted then { state with phase := .settling source }
  else { state with phase := .updating source status }

/-- An exception leaves `run_command`. -/
def State.propagate (mode : Mode) (state : State) : State :=
  match mode with
  | .background => state.update .recovery .error
  | .sse | .sync => { state with phase := .ended }

/-- What follows the completed write of a source. -/
def Phase.afterWrite (mode : Mode) (source : Source) : Phase :=
  match mode, source with
  | .sse, .body | .sse, .errorHandler => .closing
  | _, _ => .ended

/-- `CancelledError` in the `try` body. -/
def State.handleCancel (mode : Mode) (state : State) : State :=
  match mode with
  | .sse => state.update .cancelHandler .cancelled
  | .sync | .background => { state with phase := .releasing }

def step (mode : Mode) (state : State) : Event → Option State
  | .inserted =>
    if state.phase = .inserting then
      some { state with
        row := some .running
        phase := if mode = .sync then .working else .launched }
    else none
  | .cancelInsert applied =>
    if state.phase = .inserting then
      some { state with row := if applied then some .running else none, phase := .ended }
    else none
  | .start =>
    if state.phase = .launched then
      some { state with phase := if mode = .sse then .opening else .prelude }
    else none
  | .prepared =>
    if state.phase = .prelude then some { state with phase := .working } else none
  | .resume =>
    match state.phase with
    | .opening | .yielding => some { state with phase := .working }
    | .closing => some { state with phase := .ended }
    | _ => none
  | .emit =>
    if state.phase = .working ∧ mode = .sse then some { state with phase := .yielding } else none
  | .finish returncode =>
    if state.phase = .working then
      -- `stream_dbt` raises `CancelledError` itself on the return code -1.
      if mode = .sse ∧ returncode = -1 then some (state.handleCancel mode)
      else some (state.update .body (statusOf returncode))
    else none
  | .timeout =>
    if state.phase = .working then some (state.update .errorHandler .error) else none
  | .raise =>
    match state.phase with
    | .prelude => some (state.propagate mode)
    | .working =>
      if mode = .sse then some (state.update .errorHandler .error)
      else some (state.propagate mode)
    | .releasing => some (state.propagate mode)
    | .updating source _ =>
      -- The results of the run are read and serialised before the commit.
      match mode, source with
      | .sse, .body => some (state.update .errorHandler .error)
      | .sse, _ => some { state with phase := .ended }
      | _, .body => some (state.propagate mode)
      | _, _ => none
    | _ => none
  | .cancel applied =>
    match state.phase with
    | .launched | .prelude => some { state with phase := .ended }
    | .working => some (state.handleCancel mode)
    | .releasing => some { state with phase := .ended }
    | .updating source status =>
      match mode, source with
      | .sse, .cancelHandler => some { state with phase := .ended, pending := true }
      | .sse, .body =>
        some ({ state with row := if applied then some status else state.row }.handleCancel mode)
      | _, _ =>
        some { state with
          row := if applied then some status else state.row
          phase := .ended }
    | .settling _ => some { state with phase := .ended }
    | _ => none
  | .close =>
    match state.phase with
    | .opening | .yielding | .closing => some { state with phase := .ended }
    | _ => none
  | .released =>
    if state.phase = .releasing then some (state.update .cancelHandler .cancelled) else none
  | .committed =>
    match state.phase with
    | .updating source status =>
      some { state with
        row := some status
        phase := .settling source
        persisted := decide (mode = .sse) }
    | _ => none
  | .settled =>
    match state.phase with
    | .settling source => some { state with phase := .afterWrite mode source }
    | _ => none
  | .shieldedCommit =>
    if state.pending then some { state with row := some .cancelled, pending := false } else none
  | .reconcile =>
    if state.row = some .running then some { state with row := some .cancelled } else none

/-- The row is about to be inserted. -/
def machine (mode : Mode) : Machine State Event where
  init := ⟨none, .inserting, false, false⟩
  step := step mode

end DbtCraft.Services.RunLifecycle

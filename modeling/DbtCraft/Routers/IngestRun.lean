/-
# One ingest run and its row

`event_generator` of `ingest_sse` with its `_RunRecorder`. The row is inserted as `running`
before the first event, and `finish` writes the outcome that the generator collected from
the events of `_stream_process`. As in `Ingest`, a phase is a point of suspension; an
`UPDATE` and its commit are one point. The database does not fail.
-/

import DbtCraft.Routers.Ingest
import DbtCraft.Services.RunLifecycle

namespace DbtCraft.Routers.IngestRun

open DbtCraft.Math DbtCraft.Python
open DbtCraft.Services.RunOutcome (RunStatus)

/-- Where `event_generator` is suspended. -/
inductive Phase
  | /-- `recorder.start()`, up to its commit. -/
    inserting
  | /-- `recorder.start()`, past its commit. -/
    inserted
  | /-- At the `yield` of the `started` event. -/
    yieldingStarted
  | /-- Entering `global_run_semaphore`. -/
    acquiring
  | /-- Entering `AsyncFileLock.lock`. -/
    locking
  | /-- Iterating `_stream_process`. -/
    streaming
  | /-- Leaving the `async with`. -/
    releasing (ending : Ingest.Ending)
  | /-- In the `Exception` handler, at its `yield`. -/
    yieldingError
  | /-- `recorder.finish()`, up to its commit. -/
    finishing
  | /-- `recorder.finish()`, past its commit. -/
    finished
  | ended
  deriving DecidableEq

structure State where
  /-- `config["destination"]["kind"] == "duckdb"`. -/
  needsDuckdbLock : Bool
  phase : Phase := .inserting
  load : Ingest.State := ⟨.absent, .spawning⟩
  /-- The `ingest_runs` row, whose id is the `run_id` of the recorder. -/
  row : Option RunStatus := none
  /-- The local variable of the generator. -/
  status : RunStatus := .error
  /-- A user cancel or a disconnect came while the run was undecided. -/
  stopped : Bool := false
  deriving DecidableEq

inductive Event
  | inserted
  | /-- The deployment has no `ingest_runs` table. -/
    unavailable
  | started
  | /-- The response asks for the next event, where `_stream_process` is not involved. -/
    resume
  | /-- The global slot is taken. -/
    granted
  | locked
  | /-- A step of `_stream_process`, or of its child. -/
    load (event : Ingest.Event)
  | /-- `cancel_ingest` terminates the child. -/
    userCancel
  | released
  | /-- An exception: a refused slot or lock, a lost connection to Redis, or row counts that
    are not numbers. -/
    raise
  | committed
  | closed
  | /-- The task is cancelled outside of `_stream_process`. -/
    cancel
  | /-- The generator is closed at a `yield` outside of the iteration. -/
    close
  deriving DecidableEq

namespace State

variable (state : State)

/-- Nothing has decided yet how the run ends. -/
def undecided : Bool :=
  match state.phase with
  | .inserting | .inserted | .yieldingStarted | .acquiring | .locking => true
  | .streaming =>
    match state.load.child with
    | .absent | .running => decide (state.load.phase ≠ .timeoutReaping)
    | .exited _ => false
  | .releasing _ | .yieldingError | .finishing | .finished | .ended => false

/-- A user cancel or a disconnect. -/
def stop : State := { state with stopped := state.stopped || state.undecided }

/-- `recorder.finish(status, …)`. -/
def finish (status : RunStatus) : State :=
  match state.row with
  | none => { state with status := status, phase := .ended }
  | some _ => { state with status := status, phase := .finishing }

/-- The loop over `_stream_process` with what has become of it. -/
def follow (load : Ingest.State) : State :=
  { state with
    load := load
    status := if load.phase = .yieldingResult ∧ load.child = .exited 0 then .success
      else state.status
    phase :=
      match state.phase, load.phase with
      | .streaming, .finished ending => .releasing ending
      | phase, _ => phase }

/-- After the `async with`. -/
def leave : Ingest.Ending → State
  | .returned => state.finish state.status
  | .raised => { state with phase := .yieldingError }
  | .cancelled => state.finish .cancelled
  | .closed => { state with phase := .ended }

/-- The task is cancelled. -/
def cancel : Option State :=
  match state.phase with
  | .inserting | .inserted | .finishing | .finished => some { state with phase := .ended }
  | .acquiring => some (state.finish .cancelled)
  | .locking | .releasing _ => some { state with phase := .releasing .cancelled }
  | .yieldingStarted | .streaming | .yieldingError | .ended => none

/-- An exception at the current `await`. -/
def raise : Option State :=
  match state.phase with
  | .acquiring | .releasing _ => some { state with phase := .yieldingError }
  | .locking => some { state with phase := .releasing .raised }
  | .finishing => some { state with phase := .ended }
  | .inserting | .inserted | .yieldingStarted | .streaming | .yieldingError | .finished
  | .ended => none

end State

/-- A step of `_stream_process` that comes of a disconnect. -/
def disconnects : Ingest.Event → Bool
  | .cancel | .close => true
  | _ => false

/-- A step of the child, which takes it also after it was given up. -/
def ofChild : Ingest.Event → Bool
  | .childExit _ => true
  | _ => false

def step (maxLineBytes : ℕ) (state : State) : Event → Option State
  | .inserted =>
    if state.phase = .inserting then
      some { state with row := some .running, phase := .inserted }
    else none
  | .unavailable =>
    if state.phase = .inserting then some { state with phase := .yieldingStarted } else none
  | .started =>
    if state.phase = .inserted then some { state with phase := .yieldingStarted } else none
  | .resume =>
    match state.phase with
    | .yieldingStarted => some { state with phase := .acquiring }
    | .yieldingError => some (state.finish state.status)
    | _ => none
  | .granted =>
    if state.phase = .acquiring then
      some { state with phase := if state.needsDuckdbLock then .locking else .streaming }
    else none
  | .locked =>
    if state.phase = .locking then some { state with phase := .streaming } else none
  | .load event =>
    if state.phase = .streaming ∨ ofChild event = true then
      (Ingest.step maxLineBytes state.load event).map fun load =>
        (if disconnects event then state.stop else state).follow load
    else none
  | .userCancel =>
    if state.phase = .streaming ∧ state.load.child = .running then some state.stop else none
  | .released =>
    match state.phase with
    | .releasing ending => some (state.leave ending)
    | _ => none
  | .raise => state.raise
  | .committed =>
    if state.phase = .finishing then
      some { state with row := some state.status, phase := .finished }
    else none
  | .closed => if state.phase = .finished then some { state with phase := .ended } else none
  | .cancel => state.stop.cancel
  | .close =>
    match state.phase with
    | .yieldingStarted | .yieldingError => some { state.stop with phase := .ended }
    | _ => none

def machine (maxLineBytes : ℕ) (needsDuckdbLock : Bool) : Machine State Event where
  init := { needsDuckdbLock }
  step := step maxLineBytes

end DbtCraft.Routers.IngestRun

/-
# Streaming a dbt child

`_run_streaming_dbt_command` of `app/routers/sse.py` and the part of `stream_dbt`
that awaits it. The function runs as a task of its own; `stream_dbt` holds the
project lock and the global slot, consumes the lines the task queues, and stops
the task in a `finally` block when it is left early.

Each point at which one of the two coroutines is suspended is a phase, and each
way it can be resumed is an event: with a result, with an exception, or with
`CancelledError`. The child ends at any time.
-/

import DbtCraft.Math.Machine
import DbtCraft.Python.Subprocess

namespace DbtCraft.Routers.Sse

open DbtCraft.Math DbtCraft.Python

/-- `MAX_LINE_BYTES` of `dbt_sse`. -/
def maxLineBytes : ℕ := 64 * 1024

/-- The `limit` of the child's `StreamReader`. -/
def streamLimit (maxLineBytes : ℕ) : ℕ := maxLineBytes + 1024

/-- How the function ends. -/
inductive Ending
  | returned (returncode : ℤ)
  | raised
  | cancelled
  deriving DecidableEq

/-- Where `_run_streaming_dbt_command` is suspended. -/
inductive Phase
  | /-- `create_subprocess_exec`. -/
    spawning
  | /-- `_register_process`, before the `try`. -/
    registering
  | /-- `readline`. -/
    reading
  | /-- `on_line`. -/
    emitting
  | /-- `process.wait()` after the end of the output. -/
    waiting
  | /-- `_is_cancelled`. -/
    checking
  | /-- In the `CancelledError` handler, waiting five seconds after `terminate()`. -/
    terminating
  | /-- In the `CancelledError` handler, waiting after `kill()`. -/
    killing
  | /-- In the `finally` block, in `_unregister_process`. -/
    unregistering (ending : Ending)
  | finished (ending : Ending)
  deriving DecidableEq

/-- Where `stream_dbt` is, as far as it holds the lock and the slot. -/
inductive Scope
  | streaming
  | /-- In the `finally` block, gathering `done_task`. -/
    stoppingDone
  | /-- In the `finally` block, gathering `run_task`. -/
    stoppingRun
  | released
  deriving DecidableEq

structure State where
  child : Child
  phase : Phase
  scope : Scope
  deriving DecidableEq

inductive Event
  | spawned
  | spawnFailed
  | childExit (returncode : ℤ)
  | registered
  | /-- The next line of the output, of this many bytes. -/
    line (bytes : ℕ)
  | endOfOutput
  | emitted
  | waited
  | checked (marker : Bool)
  | /-- `readline` or the line callback raises. -/
    raise
  | /-- The task of the function is cancelled. -/
    cancel
  | /-- The five seconds after `terminate()` pass. -/
    graceOver
  | /-- `process.wait()` in the handler returns. -/
    reaped
  | unregistered
  | /-- `stream_dbt` has the result of the task. -/
    leaveScope
  | /-- `stream_dbt` is cancelled, closed or fails while it consumes lines. -/
    leaveLoop
  | doneGathered
  | runGathered
  | /-- `stream_dbt` is cancelled once more, in its `finally` block. -/
    interruptGather
  deriving DecidableEq

/-- The function has ended. -/
def Phase.Ended (phase : Phase) : Prop :=
  match phase with
  | .finished _ => True
  | _ => False

instance (phase : Phase) : Decidable phase.Ended := by
  cases phase <;> unfold Phase.Ended <;> infer_instance

/-- The `CancelledError` handler up to its first `await`. -/
def State.handleCancel (state : State) : State :=
  if state.child = .running then { state with phase := .terminating }
  else { state with phase := .unregistering .cancelled }

def step (maxLineBytes : ℕ) (state : State) : Event → Option State
  | .spawned =>
    if state.phase = .spawning then
      some { state with child := .running, phase := .registering }
    else none
  | .spawnFailed =>
    if state.phase = .spawning then some { state with phase := .finished .raised } else none
  | .childExit returncode =>
    if state.child = .running then some { state with child := .exited returncode } else none
  | .registered =>
    if state.phase = .registering then some { state with phase := .reading } else none
  | .line bytes =>
    if state.phase = .reading then
      match readline (streamLimit maxLineBytes) bytes with
      | .returns => some { state with phase := .emitting }
      | .valueError => some { state with phase := .unregistering .raised }
    else none
  | .endOfOutput =>
    if state.phase = .reading then some { state with phase := .waiting } else none
  | .emitted =>
    if state.phase = .emitting then some { state with phase := .reading } else none
  | .waited =>
    if state.phase = .waiting ∧ state.child ≠ .running then
      some { state with phase := .checking }
    else none
  | .checked marker =>
    if state.phase = .checking then
      some { state with
        phase := .unregistering (.returned (if marker then -1 else state.child.returncode)) }
    else none
  | .raise =>
    if state.phase = .reading ∨ state.phase = .emitting then
      some { state with phase := .unregistering .raised }
    else none
  | .cancel =>
    match state.phase with
    | .spawning => some { state with phase := .finished .cancelled }
    | .registering =>
      -- Not inside the `try` yet: neither the handler nor the `finally` runs.
      some { state with phase := .finished .cancelled }
    | .reading | .emitting | .waiting | .checking => some state.handleCancel
    | .terminating | .killing => some { state with phase := .unregistering .cancelled }
    | .unregistering _ => some { state with phase := .finished .cancelled }
    | .finished _ => none
  | .graceOver =>
    if state.phase = .terminating then some { state with phase := .killing } else none
  | .reaped =>
    if (state.phase = .terminating ∨ state.phase = .killing) ∧ state.child ≠ .running then
      some { state with phase := .unregistering .cancelled }
    else none
  | .unregistered =>
    match state.phase with
    | .unregistering ending => some { state with phase := .finished ending }
    | _ => none
  | .leaveScope =>
    if state.scope = .streaming ∧ state.phase.Ended then
      some { state with scope := .released }
    else none
  | .leaveLoop =>
    if state.scope = .streaming then some { state with scope := .stoppingDone } else none
  | .doneGathered =>
    if state.scope = .stoppingDone then
      -- A task that is not done yet is cancelled, and the scope waits for it.
      some { state with scope := if state.phase.Ended then .released else .stoppingRun }
    else none
  | .runGathered =>
    if state.scope = .stoppingRun ∧ state.phase.Ended then
      some { state with scope := .released }
    else none
  | .interruptGather =>
    if state.scope = .stoppingDone ∨ state.scope = .stoppingRun then
      some { state with scope := .released }
    else none

/-- The lock and the slot are held and the task was created. -/
def machine (maxLineBytes : ℕ) : Machine State Event where
  init := ⟨.absent, .spawning, .streaming⟩
  step := step maxLineBytes

end DbtCraft.Routers.Sse

/-
# Streaming an ingest child

`_stream_process` of `app/routers/ingest.py`, an async generator that its caller
iterates while it holds the global slot and, for a DuckDB destination, the
project lock. As in `Sse`, a phase is a point of suspension and an event a way to
be resumed; at a `yield` the generator is resumed by its caller's next step, or
closed, because the caller was cancelled or closed itself and iterates no
further.
-/

import DbtCraft.Math.Machine
import DbtCraft.Python.Subprocess

namespace DbtCraft.Routers.Ingest

open DbtCraft.Math DbtCraft.Python

/-- `MAX_LINE_BYTES`. -/
def maxLineBytes : ℕ := 16 * 1024

/-- The `limit` of the child's `StreamReader`. -/
def streamLimit (maxLineBytes : ℕ) : ℕ := maxLineBytes + 1024

/-- How the generator ends. -/
inductive Ending
  | returned
  | raised
  | cancelled
  | closed
  deriving DecidableEq

/-- Where `_stream_process` is suspended. -/
inductive Phase
  | /-- `create_subprocess_exec`. -/
    spawning
  | /-- `stdin.drain()`. -/
    draining
  | /-- `readline`. -/
    reading
  | /-- At the `yield` of a log line. -/
    yieldingLog
  | /-- `process.wait()` after the end of the output. -/
    waiting
  | /-- At the `yield` of the `completed` or `error` event. -/
    yieldingResult
  | /-- In the `TimeoutError` handler, waiting after `kill()`. -/
    timeoutReaping
  | /-- In the `TimeoutError` handler, at its `yield`. -/
    yieldingTimeout
  | /-- In the `CancelledError` handler, waiting five seconds after `terminate()`. -/
    terminating
  | /-- In the `CancelledError` handler, waiting after `kill()`. -/
    killing
  | finished (ending : Ending)
  deriving DecidableEq

structure State where
  child : Child
  phase : Phase
  deriving DecidableEq

inductive Event
  | spawned
  | spawnFailed
  | childExit (returncode : ℤ)
  | drained
  | /-- The next line of the output, of this many bytes; a result line is not
    yielded. -/
    line (bytes : ℕ) (isResult : Bool)
  | endOfOutput
  | waited
  | /-- The caller asks for the next event. -/
    resume
  | /-- `drain`, `readline` or the code after a `wait` raises. -/
    raise
  | /-- `ingest_subprocess_timeout` passes. -/
    deadline
  | /-- The task that iterates the generator is cancelled. -/
    cancel
  | /-- The caller iterates no further and the generator is closed. -/
    close
  | /-- The five seconds after `terminate()` pass. -/
    graceOver
  | /-- `process.wait()` in a handler returns. -/
    reaped
  deriving DecidableEq

/-- The `CancelledError` handler up to its first `await`. -/
def State.handleCancel (state : State) : State :=
  if state.child = .running then { state with phase := .terminating }
  else { state with phase := .finished .cancelled }

def step (maxLineBytes : ℕ) (state : State) : Event → Option State
  | .spawned =>
    if state.phase = .spawning then
      some { state with child := .running, phase := .draining }
    else none
  | .spawnFailed =>
    if state.phase = .spawning then some { state with phase := .finished .raised } else none
  | .childExit returncode =>
    if state.child = .running then some { state with child := .exited returncode } else none
  | .drained =>
    if state.phase = .draining then some { state with phase := .reading } else none
  | .line bytes isResult =>
    if state.phase = .reading then
      match readline (streamLimit maxLineBytes) bytes with
      | .returns => some (if isResult then state else { state with phase := .yieldingLog })
      | .valueError => some { state with phase := .finished .raised }
    else none
  | .endOfOutput =>
    if state.phase = .reading then some { state with phase := .waiting } else none
  | .waited =>
    if state.phase = .waiting ∧ state.child ≠ .running then
      some { state with phase := .yieldingResult }
    else none
  | .resume =>
    match state.phase with
    | .yieldingLog => some { state with phase := .reading }
    | .yieldingResult | .yieldingTimeout => some { state with phase := .finished .returned }
    | _ => none
  | .raise =>
    match state.phase with
    | .draining | .reading | .timeoutReaping => some { state with phase := .finished .raised }
    | .waiting =>
      if state.child ≠ .running then some { state with phase := .finished .raised } else none
    | _ => none
  | .deadline =>
    match state.phase with
    | .reading | .waiting => some { state with phase := .timeoutReaping }
    | _ => none
  | .cancel =>
    match state.phase with
    | .spawning => some { state with phase := .finished .cancelled }
    | .draining | .reading | .waiting => some state.handleCancel
    | .timeoutReaping | .terminating | .killing =>
      some { state with phase := .finished .cancelled }
    | .yieldingLog | .yieldingResult | .yieldingTimeout | .finished _ => none
  | .close =>
    match state.phase with
    | .yieldingLog | .yieldingResult | .yieldingTimeout =>
      some { state with phase := .finished .closed }
    | _ => none
  | .graceOver =>
    if state.phase = .terminating then some { state with phase := .killing } else none
  | .reaped =>
    if state.child ≠ .running then
      match state.phase with
      | .timeoutReaping => some { state with phase := .yieldingTimeout }
      | .terminating | .killing => some { state with phase := .finished .cancelled }
      | _ => none
    else none

/-- The generator was asked for its first event. -/
def machine (maxLineBytes : ℕ) : Machine State Event where
  init := ⟨.absent, .spawning⟩
  step := step maxLineBytes

end DbtCraft.Routers.Ingest

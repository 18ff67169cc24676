/-
# The project file lock

`AsyncFileLock.lock` in `app/core/file_lock.py`, with every caller that takes
it and every place that deletes one of its keys: the token-checked release, the
`CancelledError` handlers of `run_command` and `preview_model`, the two cancel
endpoints, and the start-up clearing in `app/main.py`.

One machine covers one project. Its parties are the `lock()` calls ever made on
the project; a call draws a fresh token, so the call itself serves as the
token. Each atomic Redis command is one event, and so is each point where a
waiting or leaving call can be cancelled.
-/

import DbtCraft.Config
import DbtCraft.Math.Holders
import DbtCraft.Redis.Store
import Mathlib.Data.Fintype.Basic

namespace DbtCraft.Core.FileLock

open DbtCraft.Math DbtCraft.Redis

universe uι

/-- The resources of a project that are locked by name. -/
inductive Resource
  | dbtRun
  | preview
  | compile
  | query
  deriving DecidableEq

instance : Fintype Resource where
  elems := {.dbtRun, .preview, .compile, .query}
  complete resource := by cases resource <;> simp

/-- The code paths that enter a lock. -/
inductive Caller
  | runCommand
  | streamDbt
  | previewModel
  | compileModel
  | ingestStream
  | maintainLakes
  | queryFallback
  deriving DecidableEq

/-- The resource a caller names. -/
def Caller.resource : Caller → Resource
  | .runCommand | .streamDbt | .ingestStream | .maintainLakes => .dbtRun
  | .previewModel => .preview
  | .compileModel => .compile
  | .queryFallback => .query

/-- The longest a caller waits for the lock. -/
def Caller.timeout (settings : Settings) : Caller → ℕ
  | .runCommand | .streamDbt | .maintainLakes => 30
  | .previewModel => 15
  | .ingestStream => 60
  | .compileModel | .queryFallback => settings.fileLockWaitTimeout

/-- Whether the caller's own `CancelledError` handler calls `force_release` on
the resource it locked. -/
def Caller.forceReleases : Caller → Bool
  | .runCommand | .previewModel => true
  | .streamDbt | .compileModel | .ingestStream | .maintainLakes | .queryFallback => false

/-- How a locked body ends. -/
inductive Ending
  | returned
  | raised
  | cancelled
  deriving DecidableEq

/-- Where one `lock()` call is. -/
inductive Phase
  | idle
  | /-- In the acquisition loop, with this `wait_time`. -/
    waiting (waitTime : ℕ)
  | /-- Inside the locked body. -/
    inside
  | /-- In the `finally` block, before the release script. -/
    leaving (ending : Ending)
  | /-- Past the lock, in the clean-up of the blocks around it (the global slot). -/
    unwinding (ending : Ending)
  | /-- In the caller's `CancelledError` handler, before `force_release`. -/
    handling
  | finished
  deriving DecidableEq

/-- The loop condition `wait_time < timeout`; past it the call raises
`TimeoutError`. -/
def Phase.await (timeout waitTime : ℕ) : Phase :=
  if waitTime < timeout then .waiting waitTime else .unwinding .raised

/-- What follows once the exception, if any, reaches the caller's handlers. -/
def Phase.afterUnwinding (caller : Caller) : Ending → Phase
  | .cancelled => if caller.forceReleases then .handling else .finished
  | .returned | .raised => .finished

/-- The lock keys of one project, the calls on them, and the keys each starting
worker's `SCAN` has returned and not yet deleted. -/
structure State (ι : Type uι) where
  keys : Store Resource ι
  phase : ι → Phase
  stale : ℕ → List Resource

/-- The atomic steps. -/
inductive Event (ι : Type uι)
  | /-- A call starts. -/
    enter (call : ι)
  | /-- The task is cancelled inside the caller's `try`, before it reaches the
    lock (waiting for the global slot). -/
    cancelEntering (call : ι)
  | /-- `SET NX EX`, and one second of sleep when the key exists. -/
    attempt (call : ι)
  | /-- The renewal script of a call inside its body. -/
    renew (call : ι)
  | /-- The body ends. -/
    leave (call : ι) (ending : Ending)
  | /-- The token-checked release script. -/
    release (call : ι)
  | /-- The task is cancelled in the acquisition loop; `applied` tells whether
    a pending `SET NX EX` still reached Redis. -/
    cancelWaiting (call : ι) (applied : Bool)
  | /-- The task is cancelled during the release script. -/
    cancelRelease (call : ι) (applied : Bool)
  | /-- The blocks around the lock end. -/
    unwind (call : ι)
  | /-- The task is cancelled while the blocks around the lock end. -/
    cancelUnwinding (call : ι)
  | /-- The caller's `CancelledError` handler deletes the key. -/
    forceRelease (call : ι)
  | /-- The handler is cancelled before its delete. -/
    cancelHandler (call : ι)
  | /-- `cancel_dbt_run` for the run of this call. -/
    cancelRun (call : ι)
  | /-- One `force_release` of `cancel_process`. -/
    cancelProcess (resource : Resource)
  | /-- A starting worker's `scan_iter` returns an existing key. -/
    scanStale (worker : ℕ) (resource : Resource)
  | /-- A starting worker deletes a key its scan returned. -/
    deleteStale (worker : ℕ) (resource : Resource)
  | /-- One second passes on the Redis server. -/
    tick
  deriving DecidableEq

variable {ι : Type uι} [DecidableEq ι]

def State.setPhase (state : State ι) (call : ι) (phase : Phase) : State ι :=
  { state with phase := Function.update state.phase call phase }

/-- One atomic step of the project's locks. -/
def step (callers : ι → Caller) (settings : Settings) (state : State ι) :
    Event ι → Option (State ι)
  | .enter call =>
    if state.phase call = .idle then
      some (state.setPhase call (.await ((callers call).timeout settings) 0))
    else none
  | .cancelEntering call =>
    if state.phase call = .idle then
      some (state.setPhase call (.afterUnwinding (callers call) .cancelled))
    else none
  | .attempt call =>
    match state.phase call with
    | .waiting waitTime =>
      match state.keys.setNxEx (callers call).resource call settings.fileLockTtl with
      | some keys => some { state.setPhase call .inside with keys := keys }
      | none =>
        some (state.setPhase call (.await ((callers call).timeout settings) (waitTime + 1)))
    | _ => none
  | .renew call =>
    if state.phase call = .inside then
      some { state with
        keys := state.keys.expireIf (callers call).resource call settings.fileLockTtl }
    else none
  | .leave call ending =>
    if state.phase call = .inside then some (state.setPhase call (.leaving ending)) else none
  | .release call =>
    match state.phase call with
    | .leaving ending =>
      some { state.setPhase call (.unwinding ending) with
        keys := state.keys.delIf (callers call).resource call }
    | _ => none
  | .cancelWaiting call applied =>
    match state.phase call with
    | .waiting _ =>
      some { state.setPhase call (.unwinding .cancelled) with
        keys :=
          if applied then
            (state.keys.setNxEx (callers call).resource call settings.fileLockTtl).getD state.keys
          else state.keys }
    | _ => none
  | .cancelRelease call applied =>
    match state.phase call with
    | .leaving _ =>
      some { state.setPhase call (.unwinding .cancelled) with
        keys :=
          if applied then state.keys.delIf (callers call).resource call else state.keys }
    | _ => none
  | .unwind call =>
    match state.phase call with
    | .unwinding ending =>
      some (state.setPhase call (.afterUnwinding (callers call) ending))
    | _ => none
  | .cancelUnwinding call =>
    match state.phase call with
    | .unwinding _ => some (state.setPhase call (.afterUnwinding (callers call) .cancelled))
    | _ => none
  | .forceRelease call =>
    if state.phase call = .handling then
      some { state.setPhase call .finished with keys := state.keys.del (callers call).resource }
    else none
  | .cancelHandler call =>
    if state.phase call = .handling then some (state.setPhase call .finished) else none
  | .cancelRun _ =>
    -- The row is `running` from before the lock is waited for until after it is left.
    some { state with keys := state.keys.del .dbtRun }
  | .cancelProcess resource =>
    if resource ∈ [Resource.preview, .dbtRun, .compile] then
      some { state with keys := state.keys.del resource }
    else none
  | .scanStale worker resource =>
    if state.keys.get resource ≠ none then
      some { state with
        stale := Function.update state.stale worker (resource :: state.stale worker) }
    else none
  | .deleteStale worker resource =>
    if resource ∈ state.stale worker then
      some { state with
        keys := state.keys.del resource
        stale := Function.update state.stale worker ((state.stale worker).erase resource) }
    else none
  | .tick => some { state with keys := state.keys.elapse }

/-- The locks of one project, all free. -/
def machine (callers : ι → Caller) (settings : Settings) : Machine (State ι) (Event ι) where
  init := ⟨.empty, fun _ => .idle, fun _ => []⟩
  step := step callers settings

end DbtCraft.Core.FileLock

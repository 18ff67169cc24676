/-
# The ingest requests of one source

All requests of `ingest_sse` and `cancel_ingest` for one source within a process. Each ingest
request deletes the pipeline directory for a full refresh and then becomes a run of
`event_generator`; the runs share the entry of the source in `_processes` and, for a DuckDB
destination, the lock of the project. The key of the lock is known by who holds it.
-/

import DbtCraft.Routers.IngestRun
import Mathlib.Logic.Function.Basic

namespace DbtCraft.Routers.IngestRequests

open DbtCraft.Math DbtCraft.Python

/-- A call of `cancel_ingest`. -/
structure Cancellation where
  /-- The loads that were live. -/
  live : List ℕ
  /-- Whose process was terminated. -/
  terminated : Option ℕ
  deriving DecidableEq

structure State where
  received : ℕ := 0
  runs : ℕ → IngestRun.State := fun _ => { needsDuckdbLock := false }
  /-- `_processes.get(source_id)`. -/
  processes : Option ℕ := none
  /-- Who holds the `dbt_run` lock of the project. -/
  lock : Option ℕ := none
  /-- The live loads at each `rmtree` of the pipeline directory. -/
  removals : List (List ℕ) := []
  cancellations : List Cancellation := []

inductive Event
  | /-- `ingest_sse`, up to its response. -/
    request (fullRefresh needsDuckdbLock : Bool)
  | run (request : ℕ) (event : IngestRun.Event)
  | cancelIngest
  | /-- The key of the lock is released, deleted or expires. -/
    unlock
  deriving DecidableEq

namespace State

variable (state : State)

/-- The process of a request works in the pipeline directory. -/
def Live (request : ℕ) : Prop :=
  request < state.received ∧ (state.runs request).load.child = .running

instance (request : ℕ) : Decidable (state.Live request) := inferInstanceAs (Decidable (_ ∧ _))

def live : List ℕ := (List.range state.received).filter fun request => state.Live request

def ingestSse (fullRefresh needsDuckdbLock : Bool) : State :=
  { state with
    received := state.received + 1
    runs := Function.update state.runs state.received { needsDuckdbLock }
    removals := if fullRefresh then state.removals ++ [state.live] else state.removals }

def cancelIngest : State :=
  match state.processes with
  | some request =>
    if (state.runs request).load.child = .running then
      { state with
        runs := Function.update state.runs request (state.runs request).stop
        cancellations := state.cancellations ++ [⟨state.live, some request⟩] }
    else { state with cancellations := state.cancellations ++ [⟨state.live, none⟩] }
  | none => { state with cancellations := state.cancellations ++ [⟨state.live, none⟩] }

end State

/-- `_stream_process` leaves the `try` whose `finally` pops the entry. -/
def unregisters (before after : Ingest.Phase) : Bool :=
  match before, after with
  | .spawning, _ | .finished _, _ => false
  | _, .finished _ => true
  | _, _ => false

/-- What a step of a run does to `_processes`. -/
def State.register (state : State) (request : ℕ) (event : IngestRun.Event)
    (run : IngestRun.State) : Option ℕ :=
  if event = .load .spawned then some request
  else if unregisters (state.runs request).load.phase run.load.phase then none
  else state.processes

/-- A step of a run; a lock is entered when its key is free. -/
def State.advance (maxLineBytes : ℕ) (state : State) (request : ℕ) (event : IngestRun.Event) :
    Option State :=
  (IngestRun.step maxLineBytes (state.runs request) event).map fun run =>
    { state with
      runs := Function.update state.runs request run
      processes := state.register request event run
      lock := if event = .locked then some request else state.lock }

def step (maxLineBytes : ℕ) (state : State) : Event → Option State
  | .request fullRefresh needsDuckdbLock => some (state.ingestSse fullRefresh needsDuckdbLock)
  | .run request event =>
    if request < state.received ∧ event ≠ .userCancel ∧
        (event = .locked → state.lock = none) then
      state.advance maxLineBytes request event
    else none
  | .cancelIngest => some state.cancelIngest
  | .unlock => some { state with lock := none }

def machine (maxLineBytes : ℕ) : Machine State Event where
  init := {}
  step := step maxLineBytes

end DbtCraft.Routers.IngestRequests

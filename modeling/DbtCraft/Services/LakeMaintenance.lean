/-
# Maintaining the lakes

`RunScheduler.maintain_lakehouses` beside the dbt runs, which resolve the lake of their
project before they wait for its lock, and the requests that change what a round has read:
`set_project_lakehouse`, the trash, and `RunScheduler.stop`. Every statement that is sent to
the database is a step of its own. The locks are mutually exclusive; any number of runs and
of rounds are under way at a time.
-/

import DbtCraft.Routers.LakeRelease

namespace DbtCraft.Services.LakeMaintenance

open DbtCraft.Math DbtCraft.Python DbtCraft.Ingest.Lakehouse DbtCraft.Services.Lakes
open DbtCraft.Routers.Lake hiding State Event step service
open DbtCraft.Server.Connections (Connection Runtime)

/-! ## What is stored -/

/-- Who holds the `dbt_run` lock of a project. -/
inductive Holder
  | run (call : ℕ)
  | round (call : ℕ)
  deriving DecidableEq

/-- The lake that a run has resolved, and the connection it is of. -/
abbrev Resolved := Option (String × LakeRef)

/-- A dbt run. -/
inductive Job
  | /-- It has found its project, in `_regenerate_profiles_from_db`. -/
    begun (projectId : String)
  | /-- It has read which lake its project is attached to. -/
    starting (projectId connectionId : String)
  | /-- It waits for the lock of its project. -/
    waiting (projectId : String) (lake : Resolved)
  | /-- It is inside the locked body. -/
    inside (projectId : String) (lake : Resolved)

/-- A call of `maintain_lakehouses`; `rest` are the lakes that are still to be visited, with
the projects that were read for them. -/
inductive Round
  | listed (rest : List (String × List String))
  | /-- It enters the locks of the projects one after the other. -/
    locking (connectionId : String) (lake : LakeRef) (held toLock : List String)
      (rest : List (String × List String))
  | /-- `lakehouse.maintain` runs in its thread. -/
    maintaining (connectionId : String) (lake : LakeRef) (held : List String)
      (rest : List (String × List String))
  | /-- The task is cancelled, and its thread goes on. -/
    outlived (lake : LakeRef)

structure State where
  projects : List Project
  locks : String → Option Holder := fun _ => none
  jobs : ℕ → Option Job := fun _ => none
  rounds : ℕ → Option Round := fun _ => none

namespace State

variable (state : State)

def setJob (call : ℕ) (job : Option Job) : State :=
  { state with jobs := Function.update state.jobs call job }

def setRound (call : ℕ) (round : Option Round) : State :=
  { state with rounds := Function.update state.rounds call round }

def setLock (projectId : String) (holder : Option Holder) : State :=
  { state with locks := Function.update state.locks projectId holder }

/-- The exit stack of a round releases its locks. -/
def releaseRound (call : ℕ) : State :=
  { state with locks := fun projectId =>
      if state.locks projectId = some (.round call) then none else state.locks projectId }

end State

/-- The row of a project. -/
def projectOf (projects : List Project) (projectId : String) : Option Project :=
  projects.find? fun project => project.id = projectId

/-! ## Statements -/

/-- `extra_config->'maintained'`. -/
def maintainedOf (items : List (Value × Value)) : Option Value :=
  items.findSome? fun item =>
    match item.1 with
    | .str key => if key = "maintained" then some item.2 else none
    | _ => none

/-- `COALESCE(extra_config->>'maintained', 'false') = 'true'` of a lake. -/
def flagged (row : Connection) : Bool :=
  row.connectionType = Lakes.connectionType &&
    match row.extraConfig with
    | .dict items =>
      match maintainedOf items with
      | some (.bool maintained) => maintained
      | some (.str maintained) => maintained = "true"
      | _ => false
    | _ => false

/-- The ids of the lakes that are flagged. -/
def flaggedLakes (rows : List Connection) : List String := (rows.filter flagged).map (·.id)

/-- `resolve_lake`, as far as it answers with a lake. -/
def lakeOf (runtime : Runtime) (rows : List Connection) (connectionId : String) :
    Option LakeRef :=
  match resolveLake runtime rows connectionId none with
  | .ok lake => lake
  | .error _ => none

/-- The first query: the live projects of each flagged lake that has any. -/
def listing (lakes : List String) (projects : List Project) : List (String × List String) :=
  (lakes.map fun lake => (lake, (projectsUsingLake projects lake).map (·.id))).filter
    fun entry => entry.2 ≠ []

/-! ## Steps -/

inductive Event
  | /-- `set_project_lakehouse` writes what it has checked. -/
    setLakehouse (projectId : String) (connectionId : Option String)
  | softDelete (userId projectId : String)
  | restore (userId projectId : String)
  | runBegin (call : ℕ) (projectId : String)
  | /-- The profile is left as it is, or the run ends before it needs the lock. -/
    runSkip (call : ℕ) (ends : Bool)
  | runRead (call : ℕ)
  | runResolve (call : ℕ)
  | runLock (call : ℕ)
  | runEnd (call : ℕ)
  | maintainRead (call : ℕ)
  | maintainResolve (call : ℕ)
  | maintainLock (call : ℕ)
  | /-- A project is busy, or another exception ends the visit of the lake. -/
    maintainSkip (call : ℕ)
  | maintainStart (call : ℕ)
  | /-- `lakehouse.maintain` has returned or raised. -/
    maintainDone (call : ℕ)
  | maintainEnd (call : ℕ)
  | /-- `RunScheduler.stop` cancels the task of the round. -/
    stop (call : ℕ)
  | renew (projectId : String)

/-- A run begins with its project; one in the trash leaves the profile as it is. -/
def runBegin (projects : List Project) (projectId : String) : Job :=
  match projectOf projects projectId with
  | some project => if project.deleted then .waiting projectId none else .begun projectId
  | none => .waiting projectId none

/-- `resolve_project_lake` reads the reference of the project. -/
def runRead (projects : List Project) (projectId : String) : Job :=
  match (projectOf projects projectId).bind (·.lakehouseConnectionId) with
  | some connectionId => .starting projectId connectionId
  | none => .waiting projectId none

variable (resolve : String → Option LakeRef) (lakes : List String)

/-- The next lake of a round. -/
def maintainResolve : List (String × List String) → Option Round
  | [] => none
  | (connectionId, projectIds) :: rest =>
    match resolve connectionId with
    | some lake =>
      if lake.maintained then some (.locking connectionId lake [] projectIds rest)
      else some (.listed rest)
    | none => some (.listed rest)

/-- The task of a round is cancelled. -/
def stop : Round → Option Round
  | .listed _ | .locking .. => none
  | .maintaining _ lake _ _ => some (.outlived lake)
  | .outlived lake => some (.outlived lake)

/-- One step; one that its call is not at is refused. -/
def step (state : State) : Event → Option State
  | .setLakehouse projectId connectionId =>
    some { state with projects := attach projectId connectionId state.projects }
  | .softDelete userId projectId =>
    some { state with projects := setDeleted userId projectId true state.projects }
  | .restore userId projectId =>
    some { state with projects := setDeleted userId projectId false state.projects }
  | .runBegin call projectId =>
    match state.jobs call with
    | none => some (state.setJob call (some (runBegin state.projects projectId)))
    | some _ => none
  | .runSkip call ends =>
    match state.jobs call with
    | some (.begun projectId) =>
      some (state.setJob call (if ends then none else some (.waiting projectId none)))
    | some (.starting ..) | some (.waiting ..) =>
      if ends then some (state.setJob call none) else none
    | _ => none
  | .runRead call =>
    match state.jobs call with
    | some (.begun projectId) => some (state.setJob call (some (runRead state.projects projectId)))
    | _ => none
  | .runResolve call =>
    match state.jobs call with
    | some (.starting projectId connectionId) =>
      some (state.setJob call ((resolve connectionId).map fun lake =>
        .waiting projectId (some (connectionId, lake))))
    | _ => none
  | .runLock call =>
    match state.jobs call with
    | some (.waiting projectId lake) =>
      if state.locks projectId = none then
        some ((state.setJob call (some (.inside projectId lake))).setLock projectId
          (some (.run call)))
      else none
    | _ => none
  | .runEnd call =>
    match state.jobs call with
    | some (.inside projectId _) => some ((state.setJob call none).setLock projectId none)
    | _ => none
  | .maintainRead call =>
    match state.rounds call with
    | none => some (state.setRound call (some (.listed (listing lakes state.projects))))
    | some _ => none
  | .maintainResolve call =>
    match state.rounds call with
    | some (.listed rest) => some (state.setRound call (maintainResolve resolve rest))
    | _ => none
  | .maintainLock call =>
    match state.rounds call with
    | some (.locking connectionId lake held (projectId :: toLock) rest) =>
      if state.locks projectId = none then
        some ((state.setRound call (some (.locking connectionId lake (projectId :: held) toLock
          rest))).setLock projectId (some (.round call)))
      else none
    | _ => none
  | .maintainSkip call =>
    match state.rounds call with
    | some (.locking _ _ _ _ rest) =>
      some ((state.setRound call (some (.listed rest))).releaseRound call)
    | _ => none
  | .maintainStart call =>
    match state.rounds call with
    | some (.locking connectionId lake held [] rest) =>
      some (state.setRound call (some (.maintaining connectionId lake held rest)))
    | _ => none
  | .maintainDone call =>
    match state.rounds call with
    | some (.maintaining _ _ _ rest) =>
      some ((state.setRound call (some (.listed rest))).releaseRound call)
    | some (.outlived _) => some (state.setRound call none)
    | _ => none
  | .maintainEnd call =>
    match state.rounds call with
    | some (.listed []) => some (state.setRound call none)
    | _ => none
  | .stop call =>
    match state.rounds call with
    | some round => some ((state.setRound call (stop round)).releaseRound call)
    | none => none
  | .renew projectId =>
    match state.locks projectId with
    | some _ => some state
    | none => none

def machine (projects : List Project) : Machine State Event where
  init := { projects }
  step := step resolve lakes

/-- The runs and the rounds of a deployment with these connections. -/
def service (runtime : Runtime) (rows : List Connection) (projects : List Project) :
    Machine State Event :=
  machine (lakeOf runtime rows) (flaggedLakes rows) projects

end DbtCraft.Services.LakeMaintenance

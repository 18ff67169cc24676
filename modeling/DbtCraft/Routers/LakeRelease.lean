/-
# Releasing a lakehouse

`delete_lakehouse` and `set_project_lakehouse` of `routers/lake.py`, beside the runs and
ingests that resolve the lakehouse of a project, and the frontend's trash. Every statement
that is sent to the database is a step of its own, as is each half of `destroy`, and any
number of calls are under way at a time. There is no lock.
-/

import DbtCraft.Ingest.LakeDestroy
import DbtCraft.Math.Machine
import DbtCraft.Server.Connections

namespace DbtCraft.Routers.Lake

open DbtCraft.Math DbtCraft.Python DbtCraft.Ingest.Lakehouse DbtCraft.Services.Lakes
open DbtCraft.Server.Connections

/-! ## What is stored -/

/-- A row of `dbt_projects`. -/
structure Project where
  id : String
  createdBy : String
  /-- The project is in the trash. -/
  deleted : Bool
  lakehouseConnectionId : Option String

/-- How far a `delete_lakehouse` is. -/
inductive DeleteStage
  | resolved
  | /-- No live project uses the lake. -/
    unused
  | /-- The catalog has been dropped. -/
    dropped
  | /-- `destroy` has raised when it closed its connection. -/
    stopped
  | destroyed
  | /-- An external lake is left untouched. -/
    untouched
  deriving DecidableEq

/-- A call under way. -/
inductive Call
  | deleting (connectionId : String) (lake : LakeRef) (stage : DeleteStage)
  | /-- `set_project_lakehouse`, for a project that the user owns. -/
    setting (userId projectId : String) (connectionId : Option String)
  | /-- It has resolved the lake to attach. -/
    attaching (projectId connectionId : String)
  | /-- A run or an ingest has read which lake its project is attached to. -/
    starting (connectionId : String)
  | /-- It has resolved that lake. -/
    running (connectionId : String) (lake : LakeRef)

/-- The database, the data of the lakes, and the calls. -/
structure State where
  rows : List Connection
  projects : List Project
  world : World
  /-- A `delete_lakehouse` that is over keeps its last stage. -/
  calls : ℕ → Option Call

/-- The state in which a call is at another point. -/
def State.setCall (state : State) (call : ℕ) (next : Option Call) : State :=
  { state with calls := Function.update state.calls call next }

variable (runtime : Runtime)

/-! ## Statements -/

/-- The row that `resolve_lake` looks up. -/
def lakeRow (rows : List Connection) (connectionId : String) (owner : Option String) :
    Option Connection :=
  rows.find? fun row =>
    row.id = connectionId && (match owner with | some own => row.createdBy = own | none => true)

/-- `resolve_lake`. -/
def resolveLake (rows : List Connection) (connectionId : String) (owner : Option String) :
    Except Raised (Option LakeRef) :=
  match lakeRow rows connectionId owner with
  | none => .ok none
  | some row =>
    if row.connectionType ≠ Services.Lakes.connectionType then .ok none
    else do
      let lake ← lakeRefFromRow runtime.deployment row.id row.toConnectionRow
      if lake.managed then return some lake
      assertCatalogHostAllowed runtime.deployment.tables runtime.deployment.assertHostAllowed
        lake.catalogUrl.toList
      return some lake

/-- `_owned_project`: the user has such a project, not in the trash. -/
def ownedProject (projects : List Project) (projectId userId : String) : Bool :=
  projects.any fun project =>
    project.id = projectId && project.createdBy = userId && !project.deleted

/-- `projects_using_lake`. -/
def projectsUsingLake (projects : List Project) (connectionId : String) : List Project :=
  projects.filter fun project =>
    project.lakehouseConnectionId = some connectionId && !project.deleted

/-- `UPDATE dbt_projects SET lakehouse_connection_id = ... WHERE id = ...`. -/
def attach (projectId : String) (connectionId : Option String) (projects : List Project) :
    List Project :=
  projects.map fun project =>
    if project.id = projectId then { project with lakehouseConnectionId := connectionId }
    else project

/-- A row that goes takes the references to it along. -/
def forget (connectionId : String) (projects : List Project) : List Project :=
  projects.map fun project =>
    if project.lakehouseConnectionId = some connectionId then
      { project with lakehouseConnectionId := none }
    else project

/-- `softDeleteProject` and `restoreProject`. -/
def setDeleted (userId projectId : String) (deleted : Bool) (projects : List Project) :
    List Project :=
  projects.map fun project =>
    if project.id = projectId ∧ project.createdBy = userId then
      { project with deleted := deleted }
    else project

/-- `destroy` up to its second half: what is left, and whether it goes on. `none`: it has
raised before it touched anything. -/
def destroyCatalog (faults : Faults) (lake : LakeRef) (world : World) : Option (World × Bool) :=
  match destroyGuard lake, validateMetadataSchema lake.metadataSchema, faults.connect with
  | .ok (), .ok schema, none =>
    some ((dropCatalog runtime.deployment.tables faults schema lake world).2, faults.close.isNone)
  | _, _, _ => none

/-! ## Steps -/

/-- A step. Ids in requests are texts. -/
inductive Event
  | deleteResolve (call : ℕ) (userId idText : String)
  | deleteCheck (call : ℕ)
  | deleteDrop (call : ℕ) (faults : Faults)
  | deleteFiles (call : ℕ) (faults : Faults)
  | /-- The frontend deletes the row of a lake that has been released. -/
    deleteRow (call : ℕ)
  | setOwned (call : ℕ) (userId projectId : String) (connectionId : Option String)
  | setResolve (call : ℕ)
  | setUpdate (call : ℕ)
  | softDelete (userId projectId : String)
  | restore (userId projectId : String)
  | jobRead (call : ℕ) (projectId : String)
  | jobResolve (call : ℕ)
  | jobEnd (call : ℕ)

/-- The call has a number of its own. -/
def State.start (state : State) (call : ℕ) (first : Option Call) : Option State :=
  match state.calls call with
  | some _ => none
  | none => some (state.setCall call first)

/-- `delete_lakehouse` resolves the lake; a request for none ends there. -/
def deleteResolve (state : State) (userId idText : String) : Option Call := do
  let connectionId ← runtime.uuid idText
  match resolveLake runtime state.rows connectionId (some userId) with
  | .ok (some lake) => some (.deleting connectionId lake .resolved)
  | _ => none

/-- It asks for the projects that use the lake. -/
def deleteCheck (state : State) (connectionId : String) (lake : LakeRef) : Option Call :=
  if projectsUsingLake state.projects connectionId ≠ [] then none
  else some (.deleting connectionId lake (if lake.managed then .unused else .untouched))

/-- The first half of `destroy`. -/
def deleteDrop (state : State) (call : ℕ) (connectionId : String) (lake : LakeRef)
    (faults : Faults) : State :=
  match destroyCatalog runtime faults lake state.world with
  | none => state.setCall call none
  | some (world, goesOn) =>
    { state with world := world }.setCall call
      (some (.deleting connectionId lake (if goesOn then .dropped else .stopped)))

/-- The frontend deletes the row. -/
def deleteRow (state : State) (connectionId : String) : State :=
  { state with
    rows := state.rows.filter fun row => row.id ≠ connectionId
    projects := forget connectionId state.projects }

/-- `set_project_lakehouse` writes the reference. A row that is gone cannot be referred to. -/
def setUpdate (state : State) (projectId connectionId : String) : State :=
  if state.rows.any fun row => row.id = connectionId then
    { state with projects := attach projectId (some connectionId) state.projects }
  else state

/-- A run or an ingest reads the reference of its project. -/
def jobRead (state : State) (projectId : String) : Option Call := do
  let project ← state.projects.find? fun project => project.id = projectId
  let connectionId ← project.lakehouseConnectionId
  return .starting connectionId

/-- It resolves the lake. -/
def jobResolve (state : State) (connectionId : String) : Option Call :=
  match resolveLake runtime state.rows connectionId none with
  | .ok (some lake) => some (.running connectionId lake)
  | _ => none

/-- One step; one that its call is not at is refused. -/
def step (state : State) : Event → Option State
  | .deleteResolve call userId idText =>
    state.start call (deleteResolve runtime state userId idText)
  | .deleteCheck call =>
    match state.calls call with
    | some (.deleting connectionId lake .resolved) =>
      some (state.setCall call (deleteCheck state connectionId lake))
    | _ => none
  | .deleteDrop call faults =>
    match state.calls call with
    | some (.deleting connectionId lake .unused) =>
      some (deleteDrop runtime state call connectionId lake faults)
    | _ => none
  | .deleteFiles call faults =>
    match state.calls call with
    | some (.deleting connectionId lake .dropped) =>
      some ({ state with world := (deleteFiles faults lake state.world).2 }.setCall call
        (some (.deleting connectionId lake .destroyed)))
    | _ => none
  | .deleteRow call =>
    match state.calls call with
    | some (.deleting connectionId _ .destroyed) | some (.deleting connectionId _ .untouched) =>
      some (deleteRow state connectionId)
    | _ => none
  | .setOwned call userId projectId connectionId =>
    state.start call (if ownedProject state.projects projectId userId then
      some (.setting userId projectId connectionId) else none)
  | .setResolve call =>
    match state.calls call with
    | some (.setting userId projectId (some idText)) =>
      some (state.setCall call ((runtime.uuid idText).bind fun connectionId =>
        match resolveLake runtime state.rows connectionId (some userId) with
        | .ok (some _) => some (.attaching projectId connectionId)
        | _ => none))
    | _ => none
  | .setUpdate call =>
    match state.calls call with
    | some (.attaching projectId connectionId) =>
      some ((setUpdate state projectId connectionId).setCall call none)
    | some (.setting _ projectId none) =>
      some ({ state with projects := attach projectId none state.projects }.setCall call none)
    | _ => none
  | .softDelete userId projectId =>
    some { state with projects := setDeleted userId projectId true state.projects }
  | .restore userId projectId =>
    some { state with projects := setDeleted userId projectId false state.projects }
  | .jobRead call projectId => state.start call (jobRead state projectId)
  | .jobResolve call =>
    match state.calls call with
    | some (.starting connectionId) =>
      some (state.setCall call (jobResolve runtime state connectionId))
    | _ => none
  | .jobEnd call =>
    match state.calls call with
    | some (.starting _) | some (.running ..) => some (state.setCall call none)
    | _ => none

/-- The calls, from any rows, projects and lakes on. -/
def service (rows : List Connection) (projects : List Project) (world : World) :
    Machine State Event where
  init := ⟨rows, projects, world, fun _ => none⟩
  step := step runtime

end DbtCraft.Routers.Lake

/-
# Lakehouses in use

When the data of a lakehouse goes. The in-use test of `delete_lakehouse` looks at the live
projects only, and nothing holds what it has found until the row is gone: a project in
the trash keeps its reference, a run keeps the lake that it has resolved, and a project
can be attached to a lake whose data is already gone.
-/

import DbtCraft.Routers.LakeRelease
import DbtCraft.Server.LakeRows

namespace DbtCraft.Routers.Lake

open DbtCraft.Math DbtCraft.Python DbtCraft.Ingest.Lakehouse DbtCraft.Services.Lakes
open DbtCraft.Server.Connections

variable {runtime : Runtime} {rows : List Connection} {projects : List Project} {world : World}
  {state source target : State} {event : Event} {events : List Event} {call : ℕ}
  {next : Option Call} {connectionId projectId userId : String} {lake : LakeRef}

/-! ## Lakes that are used, and lakes that are going -/

/-- No project refers to the lake, live or in the trash. -/
def Unattached (projects : List Project) (connectionId : String) : Prop :=
  ∀ project ∈ projects, project.lakehouseConnectionId ≠ some connectionId

/-- No project refers to the lake, and no run or ingest that has resolved it goes on. -/
def Unused (state : State) (connectionId : String) : Prop :=
  Unattached state.projects connectionId ∧
    ∀ call lake, state.calls call ≠ some (.running connectionId lake)

/-- The in-use test has found no live project. -/
def DeleteStage.passed : DeleteStage → Bool
  | .resolved | .untouched => false
  | .unused | .dropped | .stopped | .destroyed => true

/-- The deletion of the data has begun. -/
def DeleteStage.begun : DeleteStage → Bool
  | .resolved | .untouched | .unused => false
  | .dropped | .stopped | .destroyed => true

/-- Data of the lake has been deleted. -/
def Destroyed (state : State) (connectionId : String) : Prop :=
  ∃ call lake stage, state.calls call = some (.deleting connectionId lake stage) ∧
    stage.begun = true

/-- The lake whose data a step deletes. -/
def destroying (state : State) : Event → Option String
  | .deleteDrop call _ =>
    match state.calls call with
    | some (.deleting connectionId _ .unused) => some connectionId
    | _ => none
  | .deleteFiles call _ =>
    match state.calls call with
    | some (.deleting connectionId _ .dropped) => some connectionId
    | _ => none
  | _ => none

/-- A step that deletes no lake in use, and attaches no project to a deleted one. -/
structure Spares (runtime : Runtime) (source : State) (event : Event) : Prop where
  unused : ∀ connectionId, destroying source event = some connectionId →
    Unused source connectionId
  world : destroying source event = none → ∀ target, step runtime source event = some target →
    target.world = source.world
  unattached : ∀ target, step runtime source event = some target → ∀ connectionId,
    Destroyed target connectionId → Unattached target.projects connectionId

/-! ## The condition -/

/-- The call is a `delete_lakehouse` that has passed its in-use test. -/
def Passes (call : Option Call) (connectionId : String) : Prop :=
  ∃ lake stage, call = some (.deleting connectionId lake stage) ∧ stage.passed = true

/-- The call is a run or an ingest that has read a reference to the lake. -/
def Uses (call : Option Call) (connectionId : String) : Prop :=
  call = some (.starting connectionId) ∨ ∃ lake, call = some (.running connectionId lake)

/-- Some `delete_lakehouse` has passed its in-use test. -/
def Passed (state : State) (connectionId : String) : Prop :=
  ∃ call, Passes (state.calls call) connectionId

/-- No run or ingest has read a reference to the lake and is not over. -/
def Idle (state : State) (connectionId : String) : Prop :=
  ∀ call, ¬ Uses (state.calls call) connectionId

/-- A step that keeps the lakes in use: an in-use test that is passed overlooks nothing, and
no lake is attached after one. -/
def Careful (source : State) : Event → Prop
  | .deleteCheck call => ∀ connectionId lake,
      source.calls call = some (.deleting connectionId lake .resolved) → lake.managed = true →
      projectsUsingLake source.projects connectionId = [] →
      (∀ project ∈ source.projects, project.deleted = true →
        project.lakehouseConnectionId ≠ some connectionId) ∧ Idle source connectionId
  | .setUpdate call => ∀ projectId connectionId,
      source.calls call = some (.attaching projectId connectionId) →
      (∃ row ∈ source.rows, row.id = connectionId) → ¬ Passed source connectionId
  | _ => True

/-! ## The invariant -/

/-- A lake that has passed the in-use test is used by nobody. -/
def Inv (state : State) : Prop :=
  ∀ connectionId, Passed state connectionId →
    Unattached state.projects connectionId ∧ Idle state connectionId

theorem not_uses_of_passes (hpasses : Passes next connectionId) : ¬ Uses next connectionId := by
  obtain ⟨lake, stage, rfl, -⟩ := hpasses
  rintro (hstarting | ⟨own, hrunning⟩)
  · cases hstarting
  · cases hrunning

theorem passes_none : ¬ Passes none connectionId := by
  rintro ⟨lake, stage, hnone, -⟩
  cases hnone

theorem uses_none : ¬ Uses none connectionId := by
  rintro (hnone | ⟨lake, hnone⟩) <;> cases hnone

theorem calls_setCall (other : ℕ) :
    (state.setCall call next).calls other = if other = call then next else state.calls other := by
  unfold State.setCall
  dsimp only
  rw [Function.update_apply]

/-- A call may go on: to a point past the in-use test where the lake is free, to a use of
the lake where it is not going. -/
theorem Inv.setCall (hinv : Inv state)
    (hpasses : ∀ connectionId, Passes next connectionId → Passed state connectionId ∨
      (Unattached state.projects connectionId ∧ Idle state connectionId))
    (huses : ∀ connectionId, Uses next connectionId → ¬ Passed state connectionId) :
    Inv (state.setCall call next) := by
  intro connectionId ⟨passer, hpasser⟩
  rw [calls_setCall] at hpasser
  have hfree : (Unattached state.projects connectionId ∧ Idle state connectionId) ∧
      ¬ Uses next connectionId := by
    split at hpasser
    · refine ⟨?_, not_uses_of_passes hpasser⟩
      rcases hpasses connectionId hpasser with hpassed | hfree
      · exact hinv connectionId hpassed
      · exact hfree
    · exact ⟨hinv connectionId ⟨passer, hpasser⟩,
        fun hnext => huses connectionId hnext ⟨passer, hpasser⟩⟩
  obtain ⟨⟨hunattached, hidle⟩, hnext⟩ := hfree
  refine ⟨hunattached, fun other => ?_⟩
  rw [calls_setCall]
  split
  · exact hnext
  · exact hidle other

theorem Inv.endCall (hinv : Inv state) : Inv (state.setCall call none) :=
  hinv.setCall (fun _ hnone => absurd hnone passes_none) fun _ hnone => absurd hnone uses_none

theorem passes_deleting {stage : DeleteStage} {other : String}
    (hpasses : Passes (some (.deleting connectionId lake stage)) other) :
    other = connectionId ∧ stage.passed = true := by
  obtain ⟨own, last, hsame, hpassed⟩ := hpasses
  cases hsame
  exact ⟨rfl, hpassed⟩

/-- A `delete_lakehouse` may go on from a point past its in-use test. -/
theorem Inv.setDeleting (hinv : Inv state) {stage : DeleteStage}
    (hpassed : stage.passed = true → Passed state connectionId ∨
      (Unattached state.projects connectionId ∧ Idle state connectionId)) :
    Inv (state.setCall call (some (.deleting connectionId lake stage))) := by
  apply hinv.setCall
  · intro other hpasses
    obtain ⟨rfl, hstage⟩ := passes_deleting hpasses
    exact hpassed hstage
  · rintro other (hstarting | ⟨own, hrunning⟩)
    · cases hstarting
    · cases hrunning

/-- The rows, the projects and the data may change where no reference to a lake that is
going is written. -/
theorem Inv.congr (hinv : Inv state) (hcalls : target.calls = state.calls)
    (hprojects : ∀ connectionId, Passed state connectionId →
      Unattached state.projects connectionId → Unattached target.projects connectionId) :
    Inv target := by
  intro connectionId hpassed
  unfold Passed at hpassed
  rw [hcalls] at hpassed
  obtain ⟨hunattached, hidle⟩ := hinv connectionId hpassed
  refine ⟨hprojects connectionId hpassed hunattached, fun other => ?_⟩
  rw [hcalls]
  exact hidle other

/-! ## References -/

/-- References survive a change that writes none. -/
theorem Unattached.map {change : Project → Project} (hunattached : Unattached projects connectionId)
    (hchange : ∀ project, (change project).lakehouseConnectionId = some connectionId →
      project.lakehouseConnectionId = some connectionId) :
    Unattached (projects.map change) connectionId := by
  intro project hproject hreference
  obtain ⟨old, hold, rfl⟩ := List.mem_map.mp hproject
  exact hunattached old hold (hchange old hreference)

theorem Unattached.setDeleted {deleted : Bool} (hunattached : Unattached projects connectionId) :
    Unattached (setDeleted userId projectId deleted projects) connectionId := by
  apply hunattached.map
  intro project hreference
  split at hreference
  · exact hreference
  · exact hreference

theorem Unattached.forget {gone : String} (hunattached : Unattached projects connectionId) :
    Unattached (forget gone projects) connectionId := by
  apply hunattached.map
  intro project hreference
  split at hreference
  · cases hreference
  · exact hreference

theorem Unattached.attach {reference : Option String} (hunattached : Unattached projects connectionId)
    (hother : reference ≠ some connectionId) :
    Unattached (attach projectId reference projects) connectionId := by
  apply hunattached.map
  intro project hreference
  split at hreference
  · exact absurd hreference hother
  · exact hreference

/-- What the in-use test finds, and what it overlooks. -/
theorem unattached_of_projectsUsingLake (hlive : projectsUsingLake projects connectionId = [])
    (htrash : ∀ project ∈ projects, project.deleted = true →
      project.lakehouseConnectionId ≠ some connectionId) :
    Unattached projects connectionId := by
  intro project hproject hreference
  cases hdeleted : project.deleted with
  | true => exact htrash project hproject hdeleted hreference
  | false =>
    have hfound : project ∈ projectsUsingLake projects connectionId := by
      unfold projectsUsingLake
      rw [List.mem_filter]
      exact ⟨hproject, by rw [hreference, hdeleted]; simp⟩
    rw [hlive] at hfound
    exact absurd hfound List.not_mem_nil

/-! ## One step -/

theorem Inv.start (hinv : Inv source) (hstart : source.start call next = some target)
    (hpasses : ∀ connectionId, ¬ Passes next connectionId)
    (huses : ∀ connectionId, Uses next connectionId → ¬ Passed source connectionId) :
    Inv target := by
  unfold State.start at hstart
  split at hstart
  · cases hstart
  · cases hstart
    exact hinv.setCall (fun connectionId hnext => absurd hnext (hpasses connectionId)) huses

/-- A run starts with a lake that its project refers to. -/
theorem not_passed_of_jobRead (hinv : Inv source)
    (huses : Uses (jobRead source projectId) connectionId) : ¬ Passed source connectionId := by
  intro hpassed
  have hread : ∃ project ∈ source.projects, project.lakehouseConnectionId = some connectionId := by
    unfold jobRead at huses
    rcases huses with hstarting | ⟨lake, hrunning⟩
    · obtain ⟨project, hfind, hreference⟩ := Option.bind_eq_some_iff.mp hstarting
      obtain ⟨reference, hsome, hstart⟩ := Option.bind_eq_some_iff.mp hreference
      cases hstart
      exact ⟨project, List.mem_of_find?_eq_some hfind, hsome⟩
    · obtain ⟨project, -, hreference⟩ := Option.bind_eq_some_iff.mp hrunning
      obtain ⟨reference, -, hstart⟩ := Option.bind_eq_some_iff.mp hreference
      cases hstart
  obtain ⟨project, hproject, hreference⟩ := hread
  exact (hinv connectionId hpassed).1 project hproject hreference

theorem not_uses_deleting {stage : DeleteStage} {other : String} :
    ¬ Uses (some (.deleting other lake stage)) connectionId := by
  rintro (hsame | ⟨own, hsame⟩) <;> cases hsame

/-- A `delete_lakehouse` that starts is before its in-use test. -/
theorem deleteResolve_cases (runtime : Runtime) (state : State) (userId idText : String) :
    deleteResolve runtime state userId idText = none ∨
      ∃ connectionId lake, deleteResolve runtime state userId idText =
        some (.deleting connectionId lake .resolved) := by
  unfold deleteResolve
  cases runtime.uuid idText with
  | none => exact .inl rfl
  | some connectionId =>
    dsimp only [Option.bind_eq_bind, Option.bind_some]
    split
    · exact .inr ⟨connectionId, _, rfl⟩
    · exact .inl rfl

/-- The in-use test keeps the invariant where it overlooks nothing. -/
theorem Inv.deleteCheck (hinv : Inv source)
    (hcareful : lake.managed = true → projectsUsingLake source.projects connectionId = [] →
      (∀ project ∈ source.projects, project.deleted = true →
        project.lakehouseConnectionId ≠ some connectionId) ∧ Idle source connectionId) :
    Inv (source.setCall call (deleteCheck source connectionId lake)) := by
  unfold Lake.deleteCheck
  split
  · exact hinv.endCall
  next hlive =>
    rw [not_not] at hlive
    apply hinv.setDeleting
    intro hstage
    cases hmanaged : lake.managed with
    | false =>
      rw [hmanaged] at hstage
      cases hstage
    | true =>
      obtain ⟨htrash, hidle⟩ := hcareful hmanaged hlive
      exact .inr ⟨unattached_of_projectsUsingLake hlive htrash, hidle⟩

theorem Inv.deleteDrop (hinv : Inv source) (hpassed : Passed source connectionId) (faults : Faults) :
    Inv (deleteDrop runtime source call connectionId lake faults) := by
  unfold Lake.deleteDrop
  split
  · exact hinv.endCall
  next after goesOn hdrop =>
    have hworld : Inv { source with world := after } :=
      hinv.congr rfl fun _ _ hunattached => hunattached
    exact hworld.setDeleting fun _ => .inl hpassed

/-- An attachment keeps it where the lake is not going. -/
theorem Inv.setUpdate (hinv : Inv source)
    (hcareful : (∃ row ∈ source.rows, row.id = connectionId) → ¬ Passed source connectionId) :
    Inv (setUpdate source projectId connectionId) := by
  unfold Lake.setUpdate
  split
  next hrow =>
    obtain ⟨row, hrow, hid⟩ := List.any_eq_true.mp hrow
    have hfree := hcareful ⟨row, hrow, of_decide_eq_true hid⟩
    have hcalls : ({ source with
        projects := attach projectId (some connectionId) source.projects } : State).calls =
      source.calls := rfl
    apply hinv.congr hcalls
    intro other hpassed hunattached
    apply hunattached.attach
    intro hsame
    cases hsame
    exact hfree hpassed
  · exact hinv

/-- **The step lemma.** A careful step keeps every lake that is going free. -/
theorem Inv.step (hinv : Inv source) (hcareful : Careful source event)
    (hstep : step runtime source event = some target) : Inv target := by
  cases event with
  | deleteResolve own user idText =>
    apply hinv.start hstep
    · intro other hpasses
      rcases deleteResolve_cases runtime source user idText with hnone | ⟨id, lake, hsome⟩
      · rw [hnone] at hpasses
        exact passes_none hpasses
      · rw [hsome] at hpasses
        exact absurd (passes_deleting hpasses).2 Bool.false_ne_true
    · intro other huses
      rcases deleteResolve_cases runtime source user idText with hnone | ⟨id, lake, hsome⟩
      · rw [hnone] at huses
        exact absurd huses uses_none
      · rw [hsome] at huses
        exact absurd huses not_uses_deleting
  | deleteCheck own =>
    simp only [Lake.step] at hstep
    split at hstep
    next id lake hcall =>
      cases hstep
      exact hinv.deleteCheck (hcareful id lake hcall)
    · cases hstep
  | deleteDrop own faults =>
    simp only [Lake.step] at hstep
    split at hstep
    next id lake hcall =>
      cases hstep
      exact hinv.deleteDrop ⟨own, lake, .unused, hcall, rfl⟩ faults
    · cases hstep
  | deleteFiles own faults =>
    simp only [Lake.step] at hstep
    split at hstep
    next id lake hcall =>
      cases hstep
      have hworld : Inv { source with world := (deleteFiles faults lake source.world).2 } :=
        hinv.congr rfl fun _ _ hunattached => hunattached
      exact hworld.setDeleting fun _ => .inl ⟨own, lake, .dropped, hcall, rfl⟩
    · cases hstep
  | deleteRow own =>
    simp only [Lake.step] at hstep
    split at hstep
    · cases hstep
      exact hinv.congr rfl fun _ _ hunattached => hunattached.forget
    · cases hstep
      exact hinv.congr rfl fun _ _ hunattached => hunattached.forget
    · cases hstep
  | setOwned own user project reference =>
    apply hinv.start hstep
    · rintro other ⟨lake, stage, hsame, -⟩
      split at hsame <;> cases hsame
    · rintro other (hsame | ⟨lake, hsame⟩) <;> split at hsame <;> cases hsame
  | setResolve own =>
    simp only [Lake.step] at hstep
    split at hstep
    next user project idText hcall =>
      cases hstep
      apply hinv.setCall
      · rintro other ⟨lake, stage, hsame, -⟩
        obtain ⟨id, -, hattaching⟩ := Option.bind_eq_some_iff.mp hsame
        split at hattaching <;> cases hattaching
      · rintro other (hsame | ⟨lake, hsame⟩)
        · obtain ⟨id, -, hattaching⟩ := Option.bind_eq_some_iff.mp hsame
          split at hattaching <;> cases hattaching
        · obtain ⟨id, -, hattaching⟩ := Option.bind_eq_some_iff.mp hsame
          split at hattaching <;> cases hattaching
    · cases hstep
  | setUpdate own =>
    simp only [Lake.step] at hstep
    split at hstep
    next project id hcall =>
      cases hstep
      exact (hinv.setUpdate (hcareful project id hcall)).endCall
    next user project hcall =>
      cases hstep
      have hdetached : Inv { source with projects := attach project none source.projects } :=
        hinv.congr rfl fun _ _ hunattached => hunattached.attach fun hnone => nomatch hnone
      exact hdetached.endCall
    · cases hstep
  | softDelete user project =>
    cases hstep
    exact hinv.congr rfl fun _ _ hunattached => hunattached.setDeleted
  | restore user project =>
    cases hstep
    exact hinv.congr rfl fun _ _ hunattached => hunattached.setDeleted
  | jobRead own project =>
    apply hinv.start hstep
    · rintro other ⟨lake, stage, hsame, -⟩
      obtain ⟨found, -, hreference⟩ := Option.bind_eq_some_iff.mp hsame
      obtain ⟨reference, -, hstart⟩ := Option.bind_eq_some_iff.mp hreference
      cases hstart
    · exact fun other huses => not_passed_of_jobRead hinv huses
  | jobResolve own =>
    simp only [Lake.step] at hstep
    split at hstep
    next id hcall =>
      cases hstep
      have hpoint : jobResolve runtime source id = none ∨
          ∃ lake, jobResolve runtime source id = some (.running id lake) := by
        unfold jobResolve
        split
        · exact .inr ⟨_, rfl⟩
        · exact .inl rfl
      apply hinv.setCall
      · rintro other ⟨lake, stage, hsame, -⟩
        rcases hpoint with hnone | ⟨own, hsome⟩
        · cases hnone.symm.trans hsame
        · cases hsome.symm.trans hsame
      · rintro other (hsame | ⟨lake, hsame⟩)
        · rcases hpoint with hnone | ⟨own, hsome⟩
          · cases hnone.symm.trans hsame
          · cases hsome.symm.trans hsame
        · rcases hpoint with hnone | ⟨own, hsome⟩
          · cases hnone.symm.trans hsame
          · cases hsome.symm.trans hsame
            -- The call has read the reference before.
            exact fun hpassed => (hinv id hpassed).2 own (.inl hcall)
    · cases hstep
  | jobEnd own =>
    simp only [Lake.step] at hstep
    split at hstep
    · cases hstep
      exact hinv.endCall
    · cases hstep
      exact hinv.endCall
    · cases hstep

/-! ## Runs -/

theorem inv_init : Inv (service runtime rows projects world).init := by
  rintro connectionId ⟨own, lake, stage, hnone, -⟩
  cases hnone

theorem Inv.of_path (hpath : (service runtime rows projects world).Path Careful events state) :
    Inv state :=
  hpath.invariant inv_init fun hinv hcareful hstep => hinv.step hcareful hstep

/-- The lake whose data a step deletes has passed the in-use test. -/
theorem passed_of_destroying (hdestroying : destroying source event = some connectionId) :
    Passed source connectionId := by
  unfold destroying at hdestroying
  split at hdestroying
  next own faults =>
    split at hdestroying
    next id lake hcall =>
      cases hdestroying
      exact ⟨own, lake, .unused, hcall, rfl⟩
    · cases hdestroying
  next own faults =>
    split at hdestroying
    next id lake hcall =>
      cases hdestroying
      exact ⟨own, lake, .dropped, hcall, rfl⟩
    · cases hdestroying
  · cases hdestroying

theorem Destroyed.passed (hdestroyed : Destroyed state connectionId) : Passed state connectionId := by
  obtain ⟨own, lake, stage, hcall, hbegun⟩ := hdestroyed
  refine ⟨own, lake, stage, hcall, ?_⟩
  cases stage <;> first | rfl | cases hbegun

theorem Unused.of_passed (hinv : Inv state) (hpassed : Passed state connectionId) :
    Unused state connectionId := by
  obtain ⟨hunattached, hidle⟩ := hinv connectionId hpassed
  exact ⟨hunattached, fun own lake hcall => hidle own (.inr ⟨lake, hcall⟩)⟩

theorem world_start (hstart : source.start call next = some target) : target.world = source.world := by
  unfold State.start at hstart
  split at hstart
  · cases hstart
  · cases hstart
    rfl

/-- Only the two halves of `destroy` touch the data of a lake. -/
theorem world_of_step (hother : destroying source event = none)
    (hstep : step runtime source event = some target) : target.world = source.world := by
  cases event with
  | deleteResolve => exact world_start hstep
  | setOwned => exact world_start hstep
  | jobRead => exact world_start hstep
  | softDelete => cases hstep; rfl
  | restore => cases hstep; rfl
  | deleteDrop own faults =>
    simp only [Lake.step] at hstep
    split at hstep
    next id lake hcall =>
      unfold destroying at hother
      dsimp only at hother
      rw [hcall] at hother
      cases hother
    · cases hstep
  | deleteFiles own faults =>
    simp only [Lake.step] at hstep
    split at hstep
    next id lake hcall =>
      unfold destroying at hother
      dsimp only at hother
      rw [hcall] at hother
      cases hother
    · cases hstep
  | deleteCheck own | setResolve own | jobResolve own =>
    simp only [Lake.step] at hstep
    split at hstep
    · cases hstep
      rfl
    · cases hstep
  | deleteRow own | jobEnd own =>
    simp only [Lake.step] at hstep
    split at hstep
    · cases hstep
      rfl
    · cases hstep
      rfl
    · cases hstep
  | setUpdate own =>
    simp only [Lake.step] at hstep
    split at hstep
    · cases hstep
      unfold setUpdate
      split <;> rfl
    · cases hstep
      rfl
    · cases hstep

/-- **Lakes in use are spared.** Where all steps of a run have been careful, a careful step
deletes the data of no lake that a project refers to or a run goes on with, and leaves no
project attached to a lake whose data has been deleted. -/
theorem spares_of_careful
    (hpath : (service runtime rows projects world).Path Careful events source)
    (hcareful : Careful source event) : Spares runtime source event where
  unused _ hdestroying := .of_passed (.of_path hpath) (passed_of_destroying hdestroying)
  world hother _ hstep := world_of_step hother hstep
  unattached _ hstep connectionId hdestroyed :=
    ((Inv.of_path hpath).step hcareful hstep connectionId hdestroyed.passed).1

/-- The lake that the row of the sample is read as. -/
def sampleLake : LakeRef where
  catalogUrl := "postgresql://db/app"
  dataPath := "/data/lake/4f1c"
  metadataSchema := "lake_4f1c"

theorem resolveLake_sample : resolveLake sampleRuntime [Server.Connections.lakeRow] "4f1c"
    (some "ada") = .ok (some sampleLake) := by
  decide +kernel

/-- Nothing is stored yet. -/
def emptyWorld : World := ⟨⟨[], [], [], 0, ""⟩, []⟩

/-- The lake is stored, for these projects. -/
def sampleState (projects : List Project) : State :=
  ⟨[Server.Connections.lakeRow], projects, emptyWorld, fun _ => none⟩

/-- A `delete_lakehouse` of it is under way. -/
def atStage (projects : List Project) (stage : DeleteStage) : State :=
  (sampleState projects).setCall 0 (some (.deleting "4f1c" sampleLake stage))

theorem step_deleteResolve_sample (projects : List Project) :
    step sampleRuntime (sampleState projects) (.deleteResolve 0 "ada" "4f1c") =
      some (atStage projects .resolved) := by
  have hlake : deleteResolve sampleRuntime (sampleState projects) "ada" "4f1c" =
      some (.deleting "4f1c" sampleLake .resolved) := by
    unfold deleteResolve
    rw [show sampleRuntime.uuid "4f1c" = some "4f1c" from rfl]
    dsimp only [Option.bind_eq_bind, Option.bind_some, sampleState]
    rw [resolveLake_sample]
  unfold step
  dsimp only
  rw [hlake]
  rfl

/-- Deleting the data of a lake that nobody uses. -/
theorem spares_of_free_lake : Spares sampleRuntime
    ((atStage [] .resolved).setCall 0 (some (.deleting "4f1c" sampleLake .unused)))
    (.deleteDrop 0 ⟨none, none, none, none, none, fun _ => false, none⟩) := by
  have hidle : Idle (atStage [] .resolved) "4f1c" := by
    intro own huses
    unfold atStage at huses
    rw [calls_setCall] at huses
    split at huses
    · exact not_uses_deleting huses
    · exact uses_none huses
  have hcareful : Careful (atStage [] .resolved) (.deleteCheck 0) := by
    intro id lake hcall _ _
    cases hcall
    exact ⟨fun _ hnone => absurd hnone List.not_mem_nil, hidle⟩
  have hpath : (service sampleRuntime [Server.Connections.lakeRow] [] emptyWorld).Path
      Careful ([] ++ [Event.deleteResolve 0 "ada" "4f1c"] ++ [Event.deleteCheck 0]) _ :=
    .extend (.extend .start trivial (step_deleteResolve_sample [])) hcareful rfl
  exact spares_of_careful hpath trivial

/-- A project in the trash that refers to the lake. -/
def trashed : Project := ⟨"p1", "ada", true, some "4f1c"⟩

theorem not_spares_of_trash : ¬ ∀ (runtime : Runtime) rows projects world events source event,
    (service runtime rows projects world).Path Machine.anyStep events source →
      Spares runtime source event := by
  intro hclaim
  have hcheck : step sampleRuntime (atStage [trashed] .resolved) (.deleteCheck 0) =
      some ((atStage [trashed] .resolved).setCall 0
        (some (.deleting "4f1c" sampleLake .unused))) := rfl
  have hpath : (service sampleRuntime [Server.Connections.lakeRow] [trashed] emptyWorld).Path
      Machine.anyStep ([] ++ [Event.deleteResolve 0 "ada" "4f1c"] ++ [Event.deleteCheck 0]) _ :=
    .extend (.extend .start trivial (step_deleteResolve_sample [trashed])) trivial hcheck
  have hspares := hclaim _ _ _ _ _ _
    (.deleteDrop 0 ⟨none, none, none, none, none, fun _ => false, none⟩) hpath
  exact (hspares.unused "4f1c" rfl).1 trashed (List.mem_singleton_self _) rfl

end DbtCraft.Routers.Lake

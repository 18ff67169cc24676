/-
# Lake maintenance excludes dbt runs

While a lake is maintained, no run that has resolved it is to be inside its locked body. A
round locks the projects it has once read, and those of one connection row: a project that is
attached or restored later, a run whose project has left the lake, and another row for the
same lake are not locked, and a thread that goes on when its task is cancelled has given its
locks back. Along every run without these steps maintenance and runs exclude each other.
-/

import DbtCraft.Routers.LakeInUse
import DbtCraft.Services.LakeMaintenance

namespace DbtCraft.Services.LakeMaintenance

open DbtCraft.Math DbtCraft.Python DbtCraft.Ingest.Lakehouse
open DbtCraft.Routers.Lake hiding State Event step service Inv
open DbtCraft.Server.Connections (Connection Runtime)

variable {resolve : String → Option LakeRef} {lakes : List String} {state next : State}
  {event : Event} {events : List Event} {call other : ℕ} {job : Job} {round : Round}
  {projects : List Project} {project : Project} {projectId connectionId userId : String}
  {lake : LakeRef} {projectIds more : List String} {rest : List (String × List String)}

/-! ## The guarantee -/

/-- The lake that `lakehouse.maintain` is executing on. -/
def Round.executes : Round → Option LakeRef
  | .maintaining _ lake _ _ | .outlived lake => some lake
  | .listed _ | .locking .. => none

/-- The same catalog and data path. -/
def SameLake (first second : LakeRef) : Prop :=
  first.catalogUrl = second.catalogUrl ∧ first.dataPath = second.dataPath

def Excluded (state : State) : Prop :=
  ∀ call round lake, state.rounds call = some round → round.executes = some lake →
    ∀ run projectId connectionId own,
      state.jobs run = some (.inside projectId (some (connectionId, own))) → ¬ SameLake lake own

/-- No two connections are one lake. -/
def Distinct (resolve : String → Option LakeRef) : Prop :=
  ∀ first second one two, resolve first = some one → resolve second = some two →
    SameLake one two → first = second

/-- The lakes that a round has yet to maintain, with the projects it locks for them. -/
def Round.entries : Round → List (String × List String)
  | .listed rest => rest
  | .locking connectionId _ held toLock rest => (connectionId, held ++ toLock) :: rest
  | .maintaining connectionId _ held rest => (connectionId, held) :: rest
  | .outlived _ => []

/-- The project of a run, and the connection it was attached to when the run read it. -/
def Job.reference : Job → Option (String × String)
  | .starting projectId connectionId => some (projectId, connectionId)
  | .waiting projectId (some (connectionId, _)) | .inside projectId (some (connectionId, _)) =>
    some (projectId, connectionId)
  | .begun _ | .waiting _ none | .inside _ none => none

/-- A round that is to maintain the lake locks the project for it. -/
def State.Locks (state : State) (projectId connectionId : String) : Prop :=
  ∀ call round, state.rounds call = some round →
    ∀ projectIds, (connectionId, projectIds) ∈ round.entries → projectId ∈ projectIds

/-- The project of a run is live, and attached to the lake that the run has read. -/
def State.Current (state : State) (job : Job) : Prop :=
  (∀ projectId, job = .begun projectId → ∀ project,
    projectOf state.projects projectId = some project → project.deleted = false) ∧
  ∀ projectId connectionId, job.reference = some (projectId, connectionId) →
    ∃ project, projectOf state.projects projectId = some project ∧ project.deleted = false ∧
      project.lakehouseConnectionId = some connectionId

/-- No project joins a lake that a round is to maintain without it, no round reads while a run
goes on whose project has left its lake, and no round is stopped at work. -/
def Orderly (state : State) : Event → Prop
  | .setLakehouse projectId (some connectionId) => state.Locks projectId connectionId
  | .restore userId projectId => ∀ project connectionId,
    projectOf state.projects projectId = some project → project.createdBy = userId →
      project.lakehouseConnectionId = some connectionId → state.Locks projectId connectionId
  | .maintainRead _ => ∀ call job, state.jobs call = some job → state.Current job
  | .stop call => ∀ round, state.rounds call = some round → round.executes = none
  | _ => True

/-! ## The invariant -/

/-- What a round holds. -/
def Round.held : Round → List String
  | .locking _ _ held _ _ | .maintaining _ _ held _ => held
  | .listed _ | .outlived _ => []

/-- What a round works on. -/
def Round.target : Round → Resolved
  | .locking connectionId lake _ _ _ | .maintaining connectionId lake _ _ =>
    some (connectionId, lake)
  | .listed _ | .outlived _ => none

/-- What a run works with. -/
def Job.resolved : Job → Resolved
  | .waiting _ lake | .inside _ lake => lake
  | .begun _ | .starting .. => none

/-- A run is of a project that is locked for the lake it uses, or may come to use. -/
structure CoversJob (projects : List Project) (connectionId : String) (projectIds : List String)
    (job : Job) : Prop where
  begun : ∀ projectId project, job = .begun projectId →
    projectOf projects projectId = some project →
      project.lakehouseConnectionId = some connectionId → projectId ∈ projectIds
  reference : ∀ projectId, job.reference = some (projectId, connectionId) →
    projectId ∈ projectIds

/-- The locked projects are all that use the lake, or may come to use it. -/
structure Covers (state : State) (connectionId : String) (projectIds : List String) : Prop where
  live : ∀ projectId project, projectOf state.projects projectId = some project →
    project.lakehouseConnectionId = some connectionId → project.deleted = false →
      projectId ∈ projectIds
  jobs : ∀ call job, state.jobs call = some job →
    CoversJob state.projects connectionId projectIds job

structure Inv (resolve : String → Option LakeRef) (state : State) : Prop where
  inside : ∀ call projectId lake, state.jobs call = some (.inside projectId lake) →
    state.locks projectId = some (.run call)
  held : ∀ call round, state.rounds call = some round →
    ∀ projectId ∈ round.held, state.locks projectId = some (.round call)
  covers : ∀ call round, state.rounds call = some round →
    ∀ entry ∈ round.entries, Covers state entry.1 entry.2
  target : ∀ call round, state.rounds call = some round →
    ∀ target, round.target = some target → resolve target.1 = some target.2
  resolved : ∀ call job, state.jobs call = some job →
    ∀ own, job.resolved = some own → resolve own.1 = some own.2
  calm : ∀ call lake, state.rounds call ≠ some (.outlived lake)

theorem inv_init : Inv resolve (machine resolve lakes projects).init where
  inside _ _ _ hjob := by cases hjob
  held _ _ hround := by cases hround
  covers _ _ hround := by cases hround
  target _ _ hround := by cases hround
  resolved _ _ hjob := by cases hjob
  calm _ _ hround := by cases hround

theorem Inv.excluded (hinv : Inv resolve state) (hdistinct : Distinct resolve) :
    Excluded state := by
  intro call round lake hround hexecutes run projectId connectionId own hjob hsame
  cases round with
  | listed rest | locking => cases hexecutes
  | outlived lake => exact hinv.calm call lake hround
  | maintaining target lake' held rest =>
    cases hexecutes
    have htarget := hinv.target call _ hround (target, lake) rfl
    have hown := hinv.resolved run _ hjob (connectionId, own) rfl
    obtain rfl : target = connectionId := hdistinct _ _ _ _ htarget hown hsame
    have hcovers := hinv.covers call _ hround (target, held) List.mem_cons_self
    have hheld : projectId ∈ held := (hcovers.jobs run _ hjob).reference projectId rfl
    have hlock := hinv.held call _ hround projectId hheld
    rw [hinv.inside run projectId _ hjob] at hlock
    cases hlock

/-! ## Projects -/

theorem projectOf_map {f : Project → Project} (hid : ∀ project, (f project).id = project.id) :
    projectOf (projects.map f) projectId = (projectOf projects projectId).map f := by
  unfold projectOf
  rw [List.find?_map]
  congr 1
  simp only [Function.comp_def, hid]

theorem id_of_projectOf (hproject : projectOf projects projectId = some project) :
    project.id = projectId := by
  simpa using List.find?_some hproject

/-- A live project is listed for the lake it is attached to. -/
theorem mem_listing (hproject : projectOf projects projectId = some project)
    (hattached : project.lakehouseConnectionId = some connectionId)
    (hlive : project.deleted = false)
    (hentry : (connectionId, projectIds) ∈ listing lakes projects) : projectId ∈ projectIds := by
  obtain ⟨lake, -, hlake⟩ := List.mem_map.mp (List.mem_filter.mp hentry).1
  cases hlake
  refine List.mem_map.mpr ⟨project, ?_, id_of_projectOf hproject⟩
  refine List.mem_filter.mpr ⟨List.mem_of_find?_eq_some hproject, ?_⟩
  simp [hattached, hlive]

theorem Covers.mono (hcovers : Covers state connectionId projectIds)
    (hmore : ∀ projectId ∈ projectIds, projectId ∈ more) : Covers state connectionId more where
  live own project hproject hattached hlive :=
    hmore own (hcovers.live own project hproject hattached hlive)
  jobs call job hjob :=
    ⟨fun own project hbegun hproject hattached =>
      hmore own ((hcovers.jobs call job hjob).begun own project hbegun hproject hattached),
     fun own hreference => hmore own ((hcovers.jobs call job hjob).reference own hreference)⟩

/-- The locks do not matter. -/
theorem Covers.of_locks {locks : String → Option Holder}
    (hcovers : Covers state connectionId projectIds) :
    Covers { state with locks := locks } connectionId projectIds :=
  ⟨hcovers.live, hcovers.jobs⟩

/-- A change of the projects that leaves every lake covered. -/
theorem Inv.setProjects (hinv : Inv resolve state)
    (hcovers : ∀ call round, state.rounds call = some round → ∀ entry ∈ round.entries,
      Covers { state with projects := projects } entry.1 entry.2) :
    Inv resolve { state with projects := projects } where
  inside := hinv.inside
  held := hinv.held
  covers := hcovers
  target := hinv.target
  resolved := hinv.resolved
  calm := hinv.calm

theorem Inv.setLakehouse {reference : Option String} (hinv : Inv resolve state)
    (hlocks : ∀ connectionId, reference = some connectionId → state.Locks projectId connectionId) :
    Inv resolve { state with projects := attach projectId reference state.projects } := by
  refine hinv.setProjects fun call round hround entry hentry => ?_
  have hcovers := hinv.covers call round hround entry hentry
  have hof : ∀ own, projectOf (attach projectId reference state.projects) own =
      (projectOf state.projects own).map fun project =>
        if project.id = projectId then { project with lakehouseConnectionId := reference }
        else project := by
    intro own
    exact projectOf_map fun project => by split <;> rfl
  -- A project that is attached now was so before, or is locked by every round.
  have hattached : ∀ own project, projectOf (attach projectId reference state.projects) own =
      some project → project.lakehouseConnectionId = some entry.1 → own ∈ entry.2 ∨
        ∃ before, projectOf state.projects own = some before ∧
          before.lakehouseConnectionId = some entry.1 ∧ before.deleted = project.deleted := by
    intro own project hproject hreference
    rw [hof] at hproject
    obtain ⟨before, hbefore, rfl⟩ := Option.map_eq_some_iff.mp hproject
    split at hreference
    next hsame =>
      rw [id_of_projectOf hbefore] at hsame
      subst hsame
      exact .inl (hlocks entry.1 hreference call round hround entry.2 hentry)
    next hother =>
      refine .inr ⟨before, hbefore, hreference, ?_⟩
      rw [if_neg hother]
  refine ⟨?_, ?_⟩
  · intro own project hproject hreference hlive
    rcases hattached own project hproject hreference with hlocked | ⟨before, hbefore, hwas, hsame⟩
    · exact hlocked
    · exact hcovers.live own before hbefore hwas (hsame.trans hlive)
  · intro run job hjob
    refine ⟨?_, (hcovers.jobs run job hjob).reference⟩
    intro own project hbegun hproject hreference
    rcases hattached own project hproject hreference with hlocked | ⟨before, hbefore, hwas, -⟩
    · exact hlocked
    · exact (hcovers.jobs run job hjob).begun own before hbegun hbefore hwas

theorem Inv.moveProject {deleted : Bool} (hinv : Inv resolve state)
    (hlocks : deleted = false → ∀ project connectionId,
      projectOf state.projects projectId = some project → project.createdBy = userId →
        project.lakehouseConnectionId = some connectionId → state.Locks projectId connectionId) :
    Inv resolve { state with projects := setDeleted userId projectId deleted state.projects } := by
  refine hinv.setProjects fun call round hround entry hentry => ?_
  have hcovers := hinv.covers call round hround entry hentry
  have hof : ∀ own, projectOf (setDeleted userId projectId deleted state.projects) own =
      (projectOf state.projects own).map fun project =>
        if project.id = projectId ∧ project.createdBy = userId then
          { project with deleted := deleted }
        else project := by
    intro own
    exact projectOf_map fun project => by split <;> rfl
  refine ⟨?_, ?_⟩
  · intro own project hproject hreference hlive
    rw [hof] at hproject
    obtain ⟨before, hbefore, rfl⟩ := Option.map_eq_some_iff.mp hproject
    split at hreference
    next hsame =>
      rw [if_pos hsame] at hlive
      rw [id_of_projectOf hbefore] at hsame
      obtain ⟨rfl, howner⟩ := hsame
      exact hlocks hlive before entry.1 hbefore howner hreference call round hround entry.2 hentry
    next hother =>
      rw [if_neg hother] at hlive
      exact hcovers.live own before hbefore hreference hlive
  · intro run job hjob
    refine ⟨?_, (hcovers.jobs run job hjob).reference⟩
    intro own project hbegun hproject hreference
    rw [hof] at hproject
    obtain ⟨before, hbefore, rfl⟩ := Option.map_eq_some_iff.mp hproject
    refine (hcovers.jobs run job hjob).begun own before hbegun hbefore ?_
    split at hreference <;> exact hreference

/-! ## Runs -/

theorem jobs_setJob {job : Option Job} :
    (state.setJob call job).jobs other = if other = call then job else state.jobs other :=
  Function.update_apply ..

theorem rounds_setLock {holder : Option Holder} :
    (state.setLock projectId holder).rounds = state.rounds := rfl

theorem rounds_setRound {round : Option Round} :
    (state.setRound call round).rounds other = if other = call then round else state.rounds other :=
  Function.update_apply ..

theorem locks_setLock {holder : Option Holder} {own : String} :
    (state.setLock projectId holder).locks own =
      if own = projectId then holder else state.locks own :=
  Function.update_apply ..

theorem Inv.setJob {job : Option Job} (hinv : Inv resolve state)
    (hinside : ∀ projectId lake, job ≠ some (.inside projectId lake))
    (hcovers : ∀ call round, state.rounds call = some round → ∀ entry ∈ round.entries,
      Covers state entry.1 entry.2 → ∀ own ∈ job, CoversJob state.projects entry.1 entry.2 own)
    (hresolved : ∀ own ∈ job, ∀ lake, own.resolved = some lake → resolve lake.1 = some lake.2) :
    Inv resolve (state.setJob call job) where
  inside other projectId lake hjob := by
    rw [jobs_setJob] at hjob
    split at hjob
    · exact absurd hjob (hinside projectId lake)
    · exact hinv.inside other projectId lake hjob
  held := hinv.held
  covers other round hround entry hentry := by
    have hbefore := hinv.covers other round hround entry hentry
    refine ⟨hbefore.live, fun run own hjob => ?_⟩
    rw [jobs_setJob] at hjob
    split at hjob
    · exact hcovers other round hround entry hentry hbefore own hjob
    · exact hbefore.jobs run own hjob
  target := hinv.target
  resolved other own hjob lake hlake := by
    rw [jobs_setJob] at hjob
    split at hjob
    · exact hresolved own hjob lake hlake
    · exact hinv.resolved other own hjob lake hlake
  calm := hinv.calm

/-- A run without a lake needs no lock of a round. -/
theorem coversJob_of_unused (hbegun : ∀ projectId, job ≠ .begun projectId)
    (hreference : job.reference = none) : CoversJob projects connectionId projectIds job where
  begun own _ hjob := absurd hjob (hbegun own)
  reference own hjob := by
    rw [hreference] at hjob
    cases hjob

theorem Inv.runStop (hinv : Inv resolve state) : Inv resolve (state.setJob call none) :=
  hinv.setJob (by simp) (fun _ _ _ _ _ _ own hown => by cases hown) (fun own hown => by cases hown)

theorem Inv.runWithout (hinv : Inv resolve state) :
    Inv resolve (state.setJob call (some (.waiting projectId none))) :=
  hinv.setJob (by simp) (fun _ _ _ _ _ _ own hown => by
    cases hown
    exact coversJob_of_unused (by simp) rfl) (by rintro _ ⟨⟩ _ ⟨⟩)

theorem Inv.runBegin (hinv : Inv resolve state) :
    Inv resolve (state.setJob call (some (runBegin state.projects projectId))) := by
  unfold LakeMaintenance.runBegin
  split
  next project hproject =>
    split
    · exact hinv.runWithout
    next hlive =>
      refine hinv.setJob (by simp) (fun _ _ _ entry _ hcovers own hown => ?_)
        (by rintro _ ⟨⟩ _ ⟨⟩)
      cases hown
      refine ⟨?_, by rintro _ ⟨⟩⟩
      rintro _ found ⟨⟩ hfound hattached
      rw [hproject] at hfound
      cases hfound
      exact hcovers.live projectId project hproject hattached (by simpa using hlive)
  · exact hinv.runWithout

theorem Inv.runRead (hinv : Inv resolve state)
    (hjob : state.jobs call = some (.begun projectId)) :
    Inv resolve (state.setJob call (some (runRead state.projects projectId))) := by
  unfold LakeMaintenance.runRead
  split
  next connectionId hreference =>
    obtain ⟨project, hproject, hattached⟩ := Option.bind_eq_some_iff.mp hreference
    refine hinv.setJob (by simp) (fun _ _ _ entry _ hcovers own hown => ?_)
      (by rintro _ ⟨⟩ _ ⟨⟩)
    cases hown
    refine ⟨by simp, ?_⟩
    intro read hread
    cases hread
    exact (hcovers.jobs call _ hjob).begun projectId project rfl hproject hattached
  · exact hinv.runWithout

theorem Inv.runResolve (hinv : Inv resolve state)
    (hjob : state.jobs call = some (.starting projectId connectionId)) :
    Inv resolve (state.setJob call ((resolve connectionId).map fun lake =>
      .waiting projectId (some (connectionId, lake)))) := by
  refine hinv.setJob (by simp) (fun _ _ _ entry _ hcovers own hown => ?_) fun own hown => ?_
  · obtain ⟨lake, -, rfl⟩ := Option.map_eq_some_iff.mp hown
    refine ⟨by simp, ?_⟩
    intro read hread
    cases hread
    exact (hcovers.jobs call _ hjob).reference projectId rfl
  · obtain ⟨lake, hlake, rfl⟩ := Option.map_eq_some_iff.mp hown
    rintro _ ⟨⟩
    exact hlake

theorem Inv.runLock {own : Resolved} (hinv : Inv resolve state)
    (hjob : state.jobs call = some (.waiting projectId own))
    (hfree : state.locks projectId = none) :
    Inv resolve ((state.setJob call (some (.inside projectId own))).setLock projectId
      (some (.run call))) where
  inside other held lake hinside := by
    rw [locks_setLock]
    have hinside : (state.setJob call (some (.inside projectId own))).jobs other =
      some (.inside held lake) := hinside
    rw [jobs_setJob] at hinside
    split at hinside
    next hsame =>
      cases hinside
      rw [if_pos rfl, hsame]
    · have hlock := hinv.inside other held lake hinside
      split
      next hsame =>
        rw [hsame, hfree] at hlock
        cases hlock
      · exact hlock
  held other round hround held hheld := by
    have hlock := hinv.held other round hround held hheld
    rw [locks_setLock]
    split
    next hsame =>
      rw [hsame, hfree] at hlock
      cases hlock
    · exact hlock
  covers other round hround entry hentry := by
    have hbefore := hinv.covers other round hround entry hentry
    refine ⟨hbefore.live, fun run found hfound => ?_⟩
    have hfound : (state.setJob call (some (.inside projectId own))).jobs run = some found := hfound
    rw [jobs_setJob] at hfound
    split at hfound
    · cases hfound
      have hwaiting := hbefore.jobs call _ hjob
      refine ⟨by simp, fun read hread => hwaiting.reference read ?_⟩
      cases own <;> exact hread
    · exact hbefore.jobs run found hfound
  target := hinv.target
  resolved other found hfound lake hlake := by
    have hfound : (state.setJob call (some (.inside projectId own))).jobs other = some found :=
      hfound
    rw [jobs_setJob] at hfound
    split at hfound
    · cases hfound
      exact hinv.resolved call _ hjob lake hlake
    · exact hinv.resolved other found hfound lake hlake
  calm := hinv.calm

theorem Inv.runEnd {own : Resolved} (hinv : Inv resolve state)
    (hjob : state.jobs call = some (.inside projectId own)) :
    Inv resolve ((state.setJob call none).setLock projectId none) := by
  have hlock := hinv.inside call projectId own hjob
  have hleft : Inv resolve (state.setJob call none) := hinv.runStop
  refine ⟨?_, ?_, ?_, hleft.target, hleft.resolved, hleft.calm⟩
  · intro other held lake hinside
    have hinside : (state.setJob call none).jobs other = some (.inside held lake) := hinside
    have hkept := hleft.inside other held lake hinside
    rw [locks_setLock]
    split
    next hsame =>
      rw [jobs_setJob] at hinside
      split at hinside
      · cases hinside
      next hother =>
        rw [hsame] at hkept
        rw [show (state.setJob call none).locks projectId = state.locks projectId from rfl,
          hlock] at hkept
        cases hkept
        exact absurd rfl hother
    · exact hkept
  · intro other round hround held hheld
    have hkept := hinv.held other round hround held hheld
    rw [locks_setLock]
    split
    next hsame =>
      rw [hsame, hlock] at hkept
      cases hkept
    · exact hkept
  · intro other round hround entry hentry
    exact (hleft.covers other round hround entry hentry).of_locks

/-! ## Rounds -/

/-- A round moves on with the locks it holds, and drops lakes at most. -/
theorem Inv.setRound {round : Option Round} (hinv : Inv resolve state)
    (hheld : ∀ own ∈ round, ∀ projectId ∈ own.held, state.locks projectId = some (.round call))
    (hcovers : ∀ own ∈ round, ∀ entry ∈ own.entries, Covers state entry.1 entry.2)
    (htarget : ∀ own ∈ round, ∀ target, own.target = some target →
      resolve target.1 = some target.2)
    (hcalm : ∀ lake, round ≠ some (.outlived lake)) : Inv resolve (state.setRound call round) where
  inside := hinv.inside
  held other own hown := by
    rw [rounds_setRound] at hown
    split at hown
    next hsame =>
      rw [hsame]
      exact hheld own hown
    · exact hinv.held other own hown
  covers other own hown entry hentry := by
    rw [rounds_setRound] at hown
    split at hown
    · exact ⟨(hcovers own hown entry hentry).live, (hcovers own hown entry hentry).jobs⟩
    · have hbefore := hinv.covers other own hown entry hentry
      exact ⟨hbefore.live, hbefore.jobs⟩
  target other own hown := by
    rw [rounds_setRound] at hown
    split at hown
    · exact htarget own hown
    · exact hinv.target other own hown
  resolved := hinv.resolved
  calm other lake hown := by
    rw [rounds_setRound] at hown
    split at hown
    · exact hcalm lake hown
    · exact hinv.calm other lake hown

theorem Inv.releaseRound (hinv : Inv resolve state)
    (hnone : ∀ round, state.rounds call = some round → round.held = []) :
    Inv resolve (state.releaseRound call) where
  inside other projectId lake hjob := by
    have hlock := hinv.inside other projectId lake hjob
    show (if _ then _ else _) = _
    rw [hlock, if_neg (by simp)]
  held other round hround projectId hheld := by
    have hlock := hinv.held other round hround projectId hheld
    show (if _ then _ else _) = _
    rw [hlock, if_neg]
    intro hsame
    cases hsame
    rw [hnone round hround] at hheld
    cases hheld
  covers other round hround entry hentry := (hinv.covers other round hround entry hentry).of_locks
  target := hinv.target
  resolved := hinv.resolved
  calm := hinv.calm

theorem Inv.list {round : Option Round} (hinv : Inv resolve state)
    (hround : ∀ own ∈ round, ∃ rest, own = .listed rest ∧
      ∀ entry ∈ rest, Covers state entry.1 entry.2) : Inv resolve (state.setRound call round) := by
  refine hinv.setRound ?_ ?_ ?_ ?_
  · intro own hown projectId hheld
    obtain ⟨rest, rfl, -⟩ := hround own hown
    cases hheld
  · intro own hown
    obtain ⟨rest, rfl, hcovers⟩ := hround own hown
    exact hcovers
  · intro own hown target htarget
    obtain ⟨rest, rfl, -⟩ := hround own hown
    cases htarget
  · intro lake hlake
    obtain ⟨rest, hlisted, -⟩ := hround (.outlived lake) hlake
    cases hlisted

theorem Inv.leaveRound {round : Option Round} (hinv : Inv resolve state)
    (hround : ∀ own ∈ round, ∃ rest, own = .listed rest ∧
      ∀ entry ∈ rest, Covers state entry.1 entry.2) :
    Inv resolve ((state.setRound call round).releaseRound call) := by
  refine (hinv.list hround).releaseRound fun own hown => ?_
  rw [rounds_setRound, if_pos rfl] at hown
  obtain ⟨rest, rfl, -⟩ := hround own hown
  rfl

theorem Inv.maintainRead (hinv : Inv resolve state)
    (hcurrent : ∀ call job, state.jobs call = some job → state.Current job) :
    Inv resolve (state.setRound call (some (.listed (listing lakes state.projects)))) := by
  refine hinv.list ?_
  rintro _ ⟨⟩
  refine ⟨_, rfl, fun entry hentry => ⟨?_, fun run job hjob => ⟨?_, ?_⟩⟩⟩
  · intro projectId project hproject hattached hlive
    exact mem_listing hproject hattached hlive hentry
  · intro projectId project hbegun hproject hattached
    exact mem_listing hproject hattached ((hcurrent run job hjob).1 projectId hbegun project hproject)
      hentry
  · intro projectId hreference
    obtain ⟨project, hproject, hlive, hattached⟩ := (hcurrent run job hjob).2 _ _ hreference
    exact mem_listing hproject hattached hlive hentry

theorem Inv.maintainResolve (hinv : Inv resolve state)
    (hround : state.rounds call = some (.listed rest)) :
    Inv resolve (state.setRound call (maintainResolve resolve rest)) := by
  have hcovers := hinv.covers call _ hround
  cases rest with
  | nil => exact hinv.list (by rintro _ ⟨⟩)
  | cons entry rest =>
    have hrest : ∀ own ∈ some (Round.listed rest), ∃ later, own = .listed later ∧
        ∀ entry ∈ later, Covers state entry.1 entry.2 := by
      rintro _ ⟨⟩
      exact ⟨rest, rfl, fun own hown => hcovers own (List.mem_cons_of_mem _ hown)⟩
    unfold LakeMaintenance.maintainResolve
    split
    next hnil => cases hnil
    next connectionId projectIds later hcons =>
      cases hcons
      split
      next lake hlake =>
        split
        · refine hinv.setRound ?_ ?_ ?_ (by simp)
          · rintro _ ⟨⟩ projectId hheld
            cases hheld
          · rintro _ ⟨⟩
            exact hcovers
          · rintro _ ⟨⟩ _ ⟨⟩
            exact hlake
        · exact hinv.list hrest
      · exact hinv.list hrest

theorem Inv.maintainLock {held toLock : List String} (hinv : Inv resolve state)
    (hround : state.rounds call =
      some (.locking connectionId lake held (projectId :: toLock) rest))
    (hfree : state.locks projectId = none) :
    Inv resolve ((state.setRound call (some (.locking connectionId lake (projectId :: held) toLock
      rest))).setLock projectId (some (.round call))) where
  inside other own lake hjob := by
    have hlock := hinv.inside other own lake hjob
    rw [locks_setLock]
    split
    next hsame =>
      rw [hsame, hfree] at hlock
      cases hlock
    · exact hlock
  held other own hown locked hlocked := by
    rw [locks_setLock]
    rw [rounds_setLock, rounds_setRound] at hown
    split at hown
    next hsame =>
      cases hown
      split
      · rw [hsame]
      next hother =>
        have hbefore := hinv.held call _ hround locked
          ((List.mem_cons.mp hlocked).resolve_left hother)
        rw [hsame]
        exact hbefore
    · have hbefore := hinv.held other own hown locked hlocked
      split
      next hsame =>
        rw [hsame, hfree] at hbefore
        cases hbefore
      · exact hbefore
  covers other own hown entry hentry := by
    rw [rounds_setLock, rounds_setRound] at hown
    split at hown
    · cases hown
      have hcovers := hinv.covers call _ hround
      rcases List.mem_cons.mp hentry with rfl | hlater
      · have hbefore := hcovers (connectionId, held ++ projectId :: toLock) List.mem_cons_self
        have hmore := hbefore.mono fun own hown =>
          show own ∈ projectId :: held ++ toLock by simpa [or_left_comm] using hown
        exact ⟨hmore.live, hmore.jobs⟩
      · have hbefore := hcovers entry (List.mem_cons_of_mem _ hlater)
        exact ⟨hbefore.live, hbefore.jobs⟩
    · have hbefore := hinv.covers other own hown entry hentry
      exact ⟨hbefore.live, hbefore.jobs⟩
  target other own hown := by
    rw [rounds_setLock, rounds_setRound] at hown
    split at hown
    · cases hown
      have htarget := hinv.target call _ hround
      exact htarget
    · exact hinv.target other own hown
  resolved := hinv.resolved
  calm other own hown := by
    rw [rounds_setLock, rounds_setRound] at hown
    split at hown
    · cases hown
    · exact hinv.calm other own hown

theorem Inv.maintainStart {held : List String} (hinv : Inv resolve state)
    (hround : state.rounds call = some (.locking connectionId lake held [] rest)) :
    Inv resolve (state.setRound call (some (.maintaining connectionId lake held rest))) := by
  refine hinv.setRound ?_ ?_ ?_ (by simp)
  · have hheld := hinv.held call _ hround
    rintro _ ⟨⟩
    exact hheld
  · have hcovers := hinv.covers call _ hround
    rintro _ ⟨⟩
    simpa only [Round.entries, List.append_nil] using hcovers
  · have htarget := hinv.target call _ hround
    rintro _ ⟨⟩
    exact htarget

theorem Inv.covers_rest (hinv : Inv resolve state) (hround : state.rounds call = some round)
    (hrest : ∀ entry ∈ rest, entry ∈ round.entries) :
    ∀ own ∈ some (Round.listed rest), ∃ later, own = .listed later ∧
      ∀ entry ∈ later, Covers state entry.1 entry.2 := by
  rintro _ ⟨⟩
  exact ⟨rest, rfl, fun entry hentry => hinv.covers call round hround entry (hrest entry hentry)⟩

theorem inv_step (hinv : Inv resolve state) (horderly : Orderly state event)
    (hstep : step resolve lakes state event = some next) : Inv resolve next := by
  cases event with
  | setLakehouse projectId reference =>
    cases hstep
    refine hinv.setLakehouse fun connectionId hreference => ?_
    subst hreference
    exact horderly
  | softDelete userId projectId =>
    cases hstep
    exact hinv.moveProject (by rintro ⟨⟩)
  | restore userId projectId =>
    cases hstep
    exact hinv.moveProject fun _ => horderly
  | runBegin call projectId =>
    simp only [step] at hstep
    split at hstep <;> cases hstep
    exact hinv.runBegin
  | runSkip call ends =>
    simp only [step] at hstep
    split at hstep
    · cases hstep
      cases ends with
      | true => exact hinv.runStop
      | false => exact hinv.runWithout
    · split at hstep <;> cases hstep
      exact hinv.runStop
    · split at hstep <;> cases hstep
      exact hinv.runStop
    · cases hstep
  | runRead call =>
    simp only [step] at hstep
    split at hstep <;> cases hstep
    next hjob => exact hinv.runRead hjob
  | runResolve call =>
    simp only [step] at hstep
    split at hstep <;> cases hstep
    next hjob => exact hinv.runResolve hjob
  | runLock call =>
    simp only [step] at hstep
    split at hstep
    next hjob =>
      obtain ⟨hfree, hnext⟩ := Option.ite_none_right_eq_some.mp hstep
      cases hnext
      exact hinv.runLock hjob hfree
    · cases hstep
  | runEnd call =>
    simp only [step] at hstep
    split at hstep <;> cases hstep
    next hjob => exact hinv.runEnd hjob
  | maintainRead call =>
    simp only [step] at hstep
    split at hstep <;> cases hstep
    exact hinv.maintainRead horderly
  | maintainResolve call =>
    simp only [step] at hstep
    split at hstep <;> cases hstep
    next hround => exact hinv.maintainResolve hround
  | maintainLock call =>
    simp only [step] at hstep
    split at hstep
    next hround =>
      obtain ⟨hfree, hnext⟩ := Option.ite_none_right_eq_some.mp hstep
      cases hnext
      exact hinv.maintainLock hround hfree
    · cases hstep
  | maintainSkip call =>
    simp only [step] at hstep
    split at hstep <;> cases hstep
    next hround =>
      exact hinv.leaveRound (hinv.covers_rest hround fun _ => List.mem_cons_of_mem _)
  | maintainStart call =>
    simp only [step] at hstep
    split at hstep <;> cases hstep
    next hround => exact hinv.maintainStart hround
  | maintainDone call =>
    simp only [step] at hstep
    split at hstep <;> cases hstep
    next hround =>
      exact hinv.leaveRound (hinv.covers_rest hround fun _ => List.mem_cons_of_mem _)
    · exact hinv.list (by rintro _ ⟨⟩)
  | maintainEnd call =>
    simp only [step] at hstep
    split at hstep <;> cases hstep
    exact hinv.list (by rintro _ ⟨⟩)
  | stop call =>
    simp only [step] at hstep
    split at hstep <;> cases hstep
    next round hround =>
      have hidle := horderly round hround
      cases round with
      | listed | locking => exact hinv.leaveRound (by rintro _ ⟨⟩)
      | maintaining | outlived => cases hidle
  | renew projectId =>
    simp only [step] at hstep
    split at hstep <;> cases hstep
    exact hinv

/-- **Maintenance excludes the runs**, in every state of an orderly run, where no two
connections are one lake. -/
theorem excluded_of_orderly {runtime : Runtime} {rows : List Connection}
    (hdistinct : Distinct (lakeOf runtime rows))
    (hpath : (service runtime rows projects).Path Orderly events state) : Excluded state := by
  have hinv : Inv (lakeOf runtime rows) state := hpath.invariant inv_init
    fun h horderly hstep => inv_step h horderly hstep
  exact hinv.excluded hdistinct

/-! ## A lake with one project -/

/-- How the connections of the sample are resolved. -/
def sampleLakes (connectionId : String) : Option LakeRef :=
  if connectionId = "4f1c" then some sampleLake else none

theorem lakeOf_sample :
    lakeOf Server.Connections.sampleRuntime [Server.Connections.lakeRow] = sampleLakes := by
  funext connectionId
  unfold sampleLakes
  split
  next hid =>
    subst hid
    decide +kernel
  next hid =>
    have hrow : lakeRow [Server.Connections.lakeRow] connectionId none = none := by
      unfold lakeRow
      have hother : ¬ "4f1c" = connectionId := fun h => hid h.symm
      simp [Server.Connections.lakeRow, hother]
    unfold lakeOf resolveLake
    rw [hrow]

theorem service_sample : service Server.Connections.sampleRuntime [Server.Connections.lakeRow]
    projects = machine sampleLakes ["4f1c"] projects := by
  unfold service
  rw [lakeOf_sample]
  rfl

theorem distinct_sample : Distinct sampleLakes := by
  intro first second one two hfirst hsecond _
  obtain ⟨hone, -⟩ := Option.ite_none_right_eq_some.mp hfirst
  obtain ⟨htwo, -⟩ := Option.ite_none_right_eq_some.mp hsecond
  exact hone.trans htwo.symm

/-- The project of the sample. -/
def attached : Project := ⟨"p1", "ada", false, some "4f1c"⟩

/-- A round is at work while a run waits for the lock. -/
theorem excluded_of_waiting_run :
    ∃ state, Excluded state ∧ (∃ round, state.rounds 0 = some round ∧
      round.executes = some sampleLake) ∧
        state.jobs 0 = some (.waiting "p1" (some ("4f1c", sampleLake))) := by
  have hpath : ∃ state, (machine sampleLakes ["4f1c"] [attached]).Path Orderly
      ([] ++ [Event.maintainRead 0] ++ [Event.maintainResolve 0] ++ [Event.maintainLock 0] ++ [Event.maintainStart 0] ++
        [Event.runBegin 0 "p1"] ++ [Event.runRead 0] ++ [Event.runResolve 0]) state ∧
      state.rounds 0 = some (.maintaining "4f1c" sampleLake ["p1"] []) ∧
      state.jobs 0 = some (.waiting "p1" (some ("4f1c", sampleLake))) :=
    ⟨_, .extend (.extend (.extend (.extend (.extend (.extend (.extend .start
      (fun _ _ hjob => by cases hjob) rfl) trivial rfl) trivial rfl) trivial rfl) trivial rfl)
      trivial rfl) trivial rfl, rfl, rfl⟩
  obtain ⟨state, hpath, hround, hjob⟩ := hpath
  rw [← service_sample] at hpath
  refine ⟨state, excluded_of_orderly ?_ hpath, ⟨_, hround, rfl⟩, hjob⟩
  rw [lakeOf_sample]
  exact distinct_sample

/-- The scheduler is stopped while it maintains a lake, and a run of its project begins. -/
theorem not_excluded_of_stop : ¬ ∀ (runtime : Runtime) (rows : List Connection)
    (projects : List Project) (events : List Event) (state : State),
      (service runtime rows projects).Path Machine.anyStep events state → Excluded state := by
  intro hclaim
  obtain ⟨state, hrun, hround, hjob⟩ : ∃ state,
      (machine sampleLakes ["4f1c"] [attached]).runFrom
        (machine sampleLakes ["4f1c"] [attached]).init
        [.maintainRead 0, .maintainResolve 0, .maintainLock 0, .maintainStart 0, .stop 0,
          .runBegin 0 "p1", .runRead 0, .runResolve 0, .runLock 0] = some state ∧
      state.rounds 0 = some (.outlived sampleLake) ∧
      state.jobs 0 = some (.inside "p1" (some ("4f1c", sampleLake))) := ⟨_, rfl, rfl, rfl⟩
  have hpath := Machine.path_of_runFrom hrun
  rw [← service_sample] at hpath
  exact hclaim _ _ _ _ _ hpath 0 _ _ hround rfl 0 _ _ _ hjob ⟨rfl, rfl⟩

end DbtCraft.Services.LakeMaintenance

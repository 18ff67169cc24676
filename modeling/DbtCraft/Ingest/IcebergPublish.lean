/-
# Published tables

Whether a table that is published stays published while it is published again. Adding files
never takes any away; a refresh drops the table and removes its files before the new ones
are there, and one that takes the table for unpublished removes the files under it.
-/

import Mathlib.Data.List.TakeWhile
import DbtCraft.Ingest.Iceberg

namespace DbtCraft.Ingest.Iceberg

open DbtCraft.Python

/-- The table is registered over these files, and all of them are there. -/
def TableState.Intact (state : TableState) (names : List String) : Prop :=
  (∃ registered, state.registered = some registered ∧ ∀ name, name ∈ registered ↔ name ∈ names) ∧
    ∀ name ∈ names, state.has name = true

/-- A table that was published is still so in its old version, or is so in the new one. -/
def Kept (files : LakeFiles) (before after : TableState) : Prop :=
  ∀ old, before.Intact old → after.Intact old ∨ after.Intact files.names

/-- Every attempt keeps its table, in the world that it is made in. -/
def EachKept (lake : LakeSchema) : List Attempt → World → Prop
  | [], _ => True
  | attempt :: rest, world =>
    Kept (lake.files attempt.1) (world attempt.1) (lake.attempt world attempt attempt.1) ∧
      EachKept lake rest (lake.attempt world attempt)

/-- A publish is all or nothing for each table: in each of its attempts, and in the end. -/
structure AllOrNothing (lake : LakeSchema) (attempts : Except Raised (List Attempt))
    (before after : World) : Prop where
  each : ∀ made, attempts = .ok made → EachKept lake made before
  after : ∀ table, Kept (lake.files table) (before table) (after table)

/-! ## Copies -/

/-- The files whose copies are complete when the copying ends. -/
def copiedNames (faults : Faults) (names : List String) : List String :=
  names.takeWhile fun name => (faults.copy name).isNone

variable {faults : Faults} {files : LakeFiles} {names published old : List String}
  {copies : Dict String Bool} {state : TableState} {name : String}

theorem copyFiles_fst :
    (copyFiles faults names copies).1 = none ↔ ∀ name ∈ names, faults.copy name = none := by
  induction names generalizing copies with
  | nil => simp [copyFiles]
  | cons first rest ih =>
    unfold copyFiles
    cases hfirst : faults.copy first with
    | none => simp [ih, hfirst]
    | some failure => simp [hfirst]

theorem get_copyFiles_of_not_mem (hname : name ∉ names) :
    (copyFiles faults names copies).2.get name = copies.get name := by
  induction names generalizing copies with
  | nil => rfl
  | cons first rest ih =>
    obtain ⟨hfirst, hrest⟩ := List.ne_and_not_mem_of_not_mem_cons hname
    unfold copyFiles
    split
    · rw [ih hrest, Dict.get_set, if_neg hfirst]
    next exc torn _ =>
      cases torn
      · rfl
      · exact Dict.get_set.trans (if_neg hfirst)

/-- A complete copy stays complete unless the file is copied again in vain. -/
theorem get_copyFiles_of_get (hcopy : faults.copy name = none) (hget : copies.get name = some true) :
    (copyFiles faults names copies).2.get name = some true := by
  induction names generalizing copies with
  | nil => exact hget
  | cons first rest ih =>
    unfold copyFiles
    split
    · apply ih
      rw [Dict.get_set, hget, ite_self]
    next exc torn hfirst =>
      have hne : name ≠ first := by
        intro hsame
        rw [← hsame, hcopy] at hfirst
        cases hfirst
      cases torn
      · exact hget
      · exact (Dict.get_set.trans (if_neg hne)).trans hget

theorem get_copyFiles_of_copied (hname : name ∈ copiedNames faults names) :
    (copyFiles faults names copies).2.get name = some true := by
  induction names generalizing copies with
  | nil => cases hname
  | cons first rest ih =>
    unfold copiedNames at hname
    rw [List.takeWhile_cons] at hname
    split at hname
    next hfirst =>
      have hcopy := Option.isNone_iff_eq_none.mp hfirst
      unfold copyFiles
      rw [hcopy]
      dsimp only
      rcases List.mem_cons.mp hname with hsame | hrest
      · rw [← hsame] at hcopy ⊢
        exact get_copyFiles_of_get hcopy (Dict.get_set.trans (if_pos rfl))
      · exact ih hrest
    · cases hname

theorem get_copyFiles_of_not_copied (hname : name ∉ copiedNames faults names)
    (hget : copies.get name ≠ some true) :
    (copyFiles faults names copies).2.get name ≠ some true := by
  induction names generalizing copies with
  | nil => exact hget
  | cons first rest ih =>
    unfold copiedNames at hname
    rw [List.takeWhile_cons] at hname
    unfold copyFiles
    cases hcopy : faults.copy first with
    | none =>
      rw [hcopy, Option.isNone_none, if_pos rfl] at hname
      obtain ⟨hfirst, hrest⟩ := List.ne_and_not_mem_of_not_mem_cons hname
      apply ih hrest
      rw [Dict.get_set, if_neg hfirst]
      exact hget
    | some failure =>
      obtain ⟨exc, torn⟩ := failure
      cases torn
      · exact hget
      · show (copies.set first false).get name ≠ some true
        rw [Dict.get_set]
        split
        · simp
        · exact hget

/-! ## One attempt -/

theorem intact_iff_of_registered (hregistered : state.registered = some published) :
    state.Intact old ↔
      (∀ name, name ∈ published ↔ name ∈ old) ∧ ∀ name ∈ old, state.has name = true := by
  unfold TableState.Intact
  simp only [hregistered, Option.some.injEq, exists_eq_left']

/-- A table is kept when it is still intact over its own files, or over those of the lake. -/
theorem kept_iff_of_intact {after : TableState} (hregistered : state.registered = some published)
    (hintact : ∀ name ∈ published, state.has name = true) :
    Kept files state after ↔ after.Intact published ∨ after.Intact files.names := by
  constructor
  · intro hkept
    exact hkept published ((intact_iff_of_registered hregistered).mpr ⟨fun _ => Iff.rfl, hintact⟩)
  · intro hafter old hold
    have hsame := ((intact_iff_of_registered hregistered).mp hold).1
    rcases hafter with ⟨⟨registered, hsome, hnames⟩, hhas⟩ | hnew
    · left
      exact ⟨⟨registered, hsome, fun name => (hnames name).trans (hsame name)⟩, fun name hname =>
        hhas name ((hsame name).mpr hname)⟩
    · exact Or.inr hnew

theorem has_copied_of_not_mem (hname : name ∉ names) :
    (state.mkdir.copied faults names).2.has name = state.has name := by
  have hget : (copyFiles faults names (state.directory.getD [])).2.get name = _ :=
    get_copyFiles_of_not_mem hname
  unfold TableState.has
  rw [← hget]
  rfl

theorem has_copied_of_copied (hname : name ∈ copiedNames faults names) :
    (state.mkdir.copied faults names).2.has name = true :=
  decide_eq_true (get_copyFiles_of_copied hname)

theorem copiedNames_eq_self (hall : ∀ name ∈ names, faults.copy name = none) :
    copiedNames faults names = names :=
  List.takeWhile_eq_self_iff.mpr fun name hname => Option.isNone_iff_eq_none.mpr (hall name hname)

theorem mem_newNames : name ∈ newNames names published ↔ name ∈ names ∧ name ∉ published := by
  unfold newNames
  rw [List.mem_mergeSort, List.mem_filter]
  simp

/-- Adding files keeps the table whatever raises. -/
theorem addNew_intact (hregistered : state.registered = some published)
    (hintact : ∀ name ∈ published, state.has name = true) (hsubset : published ⊆ names) :
    let after := (addNew faults published (newNames names published) state).2
    after.Intact published ∨ after.Intact names := by
  have hsame : state.Intact published :=
    (intact_iff_of_registered hregistered).mpr ⟨fun _ => Iff.rfl, hintact⟩
  have hold : ∀ name ∈ published,
      (state.mkdir.copied faults (newNames names published)).2.has name = true := by
    intro name hname
    rw [has_copied_of_not_mem fun hnew => (mem_newNames.mp hnew).2 hname]
    exact hintact name hname
  have hcopied : (state.mkdir.copied faults (newNames names published)).2.Intact published :=
    ⟨⟨published, hregistered, fun _ => Iff.rfl⟩, hold⟩
  intro after
  show (addNew faults published (newNames names published) state).2.Intact published ∨
    (addNew faults published (newNames names published) state).2.Intact names
  unfold addNew
  split
  · exact Or.inl hsame
  · split
    next exc next hresult =>
      rw [hresult] at hcopied
      exact Or.inl hcopied
    next next hresult =>
      rw [hresult] at hold hcopied
      split
      · exact Or.inl hcopied
      · exact Or.inl hcopied
      · right
        have hall := copyFiles_fst.mp (congrArg Prod.fst hresult)
        constructor
        · refine ⟨_, rfl, fun name => ?_⟩
          rw [List.mem_append, mem_newNames]
          constructor
          · intro hname
            exact hname.elim (fun hmem => hsubset hmem) fun hnew => hnew.1
          · intro hname
            by_cases hmem : name ∈ published
            · exact Or.inl hmem
            · exact Or.inr ⟨hname, hmem⟩
        · intro name hname
          by_cases hmem : name ∈ published
          · exact hold name hmem
          · have hnew : name ∈ copiedNames faults (newNames names published) := by
              rw [copiedNames_eq_self hall]
              exact mem_newNames.mpr ⟨hname, hmem⟩
            have hhas : (state.mkdir.copied faults (newNames names published)).2.has name = true :=
              has_copied_of_copied hnew
            rw [hresult] at hhas
            exact hhas

/-! ## Refreshes -/

/-- Nothing raises after a table has been dropped. -/
structure Replaced (faults : Faults) (names : List String) : Prop where
  rmtree : faults.rmtree = none
  mkdir : faults.mkdir = none
  copy : ∀ name ∈ names, faults.copy name = none
  createTable : faults.createTable = none
  addFiles : faults.addFiles = none

/-- The files of a table that is taken for unpublished are left, or copied again before a copy
fails. -/
def Restored (faults : Faults) (names published : List String) : Prop :=
  published = [] ∨
    match faults.rmtree with
    | some failure => ∀ name ∈ published, failure.2 name = false
    | none => faults.mkdir = none ∧ ∀ name ∈ published, name ∈ copiedNames faults names

theorem not_intact_of_unregistered (hregistered : state.registered = none) : ¬ state.Intact old := by
  intro hintact
  obtain ⟨⟨registered, hsome, -⟩, -⟩ := hintact
  rw [hregistered] at hsome
  cases hsome

theorem has_of_directory_none (hdirectory : state.directory = none) : state.has name = false := by
  unfold TableState.has
  rw [hdirectory]
  rfl

/-- In a directory that is made anew only complete copies are complete. -/
theorem has_copied_iff (hdirectory : state.directory = none) :
    (state.mkdir.copied faults names).2.has name = true ↔ name ∈ copiedNames faults names := by
  constructor
  · intro hhas
    by_contra hname
    have hempty : state.mkdir.directory.getD [] = [] := by
      show state.directory.getD [] = []
      rw [hdirectory]
      rfl
    have hget : (state.mkdir.directory.getD []).get name ≠ some true := by simp [hempty]
    exact get_copyFiles_of_not_copied hname hget (of_decide_eq_true hhas)
  · exact has_copied_of_copied

theorem register_directory : (register faults names state).2.directory = state.directory := by
  unfold register
  split
  · rfl
  · rfl
  · split <;> rfl

/-- A table that is registered stays registered over its files while others are copied. -/
theorem copyAll_registered (hregistered : state.registered = some published) :
    (copyAll faults names state).2.registered = some published := by
  have hclear : (clearDirectory faults state).2.registered = some published := by
    unfold clearDirectory
    split <;> exact hregistered
  unfold copyAll
  split
  next exc cleared hresult =>
    rw [hresult] at hclear
    exact hclear
  next cleared hresult =>
    rw [hresult] at hclear
    split
    · exact hclear
    · have hcopied : (cleared.mkdir.copied faults names).2.registered = some published := hclear
      split
      next exc copied hcopy =>
        rw [hcopy] at hcopied
        exact hcopied
      next copied hcopy =>
        rw [hcopy] at hcopied
        unfold register
        rw [hcopied]
        exact hcopied

/-- When the files of a table that is taken for unpublished are there in the end. -/
theorem has_copyAll_iff (hintact : ∀ name ∈ published, state.has name = true) :
    (∀ name ∈ published, (copyAll faults names state).2.has name = true) ↔
      Restored faults names published := by
  by_cases hempty : published = []
  · exact iff_of_true (by simp [hempty]) (Or.inl hempty)
  · obtain ⟨first, hfirst⟩ := List.exists_mem_of_ne_nil published hempty
    have hnone : ∀ {other : TableState}, other.directory = none →
        ¬ ∀ name ∈ published, other.has name = true := by
      intro other hdirectory hall
      have hhas := hall first hfirst
      rw [has_of_directory_none hdirectory] at hhas
      cases hhas
    unfold Restored
    rw [or_iff_right hempty]
    cases hdirectory : state.directory with
    | none => exact absurd hintact (hnone hdirectory)
    | some copies =>
      unfold copyAll clearDirectory
      rw [hdirectory]
      cases hrmtree : faults.rmtree with
      | some failure =>
        obtain ⟨exc, removed⟩ := failure
        apply forall₂_congr
        intro name hname
        have hget : copies.get name = some true := by
          have hhas := of_decide_eq_true (hintact name hname)
          rwa [hdirectory] at hhas
        show decide (Dict.get (copies.filter fun copy => !removed copy.1) name = some true) =
          true ↔ removed name = false
        rw [Dict.get_filter fun other => !removed other, hget]
        cases removed name <;> simp
      | none =>
        dsimp only
        cases hmkdir : faults.mkdir with
        | some exc =>
          apply iff_of_false
          · exact hnone rfl
          · intro hrestored
            cases hrestored.1
        | none =>
          simp only [true_and]
          apply forall₂_congr
          intro name _
          let cleared : TableState := { state with directory := none }
          have hcopied : (cleared.mkdir.copied faults names).2.has name = true ↔
              name ∈ copiedNames faults names := has_copied_iff rfl
          rw [← hcopied]
          split
          next exc copied hresult => rw [hresult]
          next copied hresult =>
            rw [hresult]
            unfold TableState.has
            rw [register_directory]

/-- A version that is intact only when it is empty. -/
def OnlyEmpty (state : TableState) : Prop := ∀ version, state.Intact version → version = []

theorem onlyEmpty_of_unregistered (hregistered : state.registered = none) : OnlyEmpty state := by
  intro version hintact
  exact absurd hintact (not_intact_of_unregistered hregistered)

/-- A table is registered over its copies, or is not there, or is empty. -/
theorem register_unregistered (hregistered : state.registered = none)
    (hhas : ∀ name ∈ names, state.has name = true) :
    (faults.createTable = none ∧ faults.addFiles = none →
        (register faults names state).2.Intact names) ∧
      (¬ (faults.createTable = none ∧ faults.addFiles = none) →
        OnlyEmpty (register faults names state).2) := by
  unfold register
  rw [hregistered]
  cases hcreate : faults.createTable with
  | some exc =>
    constructor
    · intro hboth
      cases hboth.1
    · exact fun _ => onlyEmpty_of_unregistered hregistered
  | none =>
    cases hadd : faults.addFiles with
    | some exc =>
      constructor
      · intro hboth
        cases hboth.2
      · intro _ version hintact
        obtain ⟨⟨registered, hsome, hnames⟩, -⟩ := hintact
        have hempty : [] = registered := Option.some_inj.mp hsome
        rw [List.eq_nil_iff_forall_not_mem]
        intro name hname
        rw [← hnames, ← hempty] at hname
        cases hname
    | none =>
      constructor
      · intro _
        exact ⟨⟨names, rfl, fun _ => Iff.rfl⟩, hhas⟩
      · intro hnot
        exact absurd ⟨rfl, rfl⟩ hnot

/-- A table that has been dropped is published anew when nothing raises, and is not there or
empty otherwise. -/
theorem copyAll_dropped (hregistered : state.registered = none) (hdirectory : state.directory ≠ none) :
    (Replaced faults names → (copyAll faults names state).2.Intact names) ∧
      (¬ Replaced faults names → OnlyEmpty (copyAll faults names state).2) := by
  obtain ⟨copies, hcopies⟩ := Option.ne_none_iff_exists'.mp hdirectory
  unfold copyAll clearDirectory
  rw [hcopies]
  cases hrmtree : faults.rmtree with
  | some failure =>
    constructor
    · intro hreplaced
      rw [hreplaced.rmtree] at hrmtree
      cases hrmtree
    · exact fun _ => onlyEmpty_of_unregistered hregistered
  | none =>
    dsimp only
    cases hmkdir : faults.mkdir with
    | some exc =>
      constructor
      · intro hreplaced
        rw [hreplaced.mkdir] at hmkdir
        cases hmkdir
      · exact fun _ => onlyEmpty_of_unregistered hregistered
    | none =>
      let cleared : TableState := { state with directory := none }
      have hcopied : (cleared.mkdir.copied faults names).2.registered = none := hregistered
      have hall : (cleared.mkdir.copied faults names).1 = none ↔
          ∀ name ∈ names, faults.copy name = none := copyFiles_fst
      have hhas : (∀ name ∈ names, faults.copy name = none) → ∀ name ∈ names,
          (cleared.mkdir.copied faults names).2.has name = true := by
        intro hnone name hname
        apply has_copied_of_copied
        rwa [copiedNames_eq_self hnone]
      cases hresult : TableState.copied (TableState.mkdir { state with directory := none })
          faults names with
      | mk outcome copied =>
        rw [hresult] at hcopied hall hhas
        cases outcome with
        | some exc =>
          constructor
          · intro hreplaced
            cases hall.mpr hreplaced.copy
          · exact fun _ => onlyEmpty_of_unregistered hcopied
        | none =>
          have hnone := hall.mp rfl
          obtain ⟨hpublished, hempty⟩ := register_unregistered hcopied (hhas hnone)
          constructor
          · intro hreplaced
            exact hpublished ⟨hreplaced.createTable, hreplaced.addFiles⟩
          · intro hnot
            apply hempty
            intro hboth
            exact hnot ⟨hrmtree, hmkdir, hnone, hboth.1, hboth.2⟩

/-! ## The condition -/

/-- An attempt on a published table ends before it drops or copies anything, only adds files, or
brings the table back before anything raises. -/
def Steady (faults : Faults) (files : LakeFiles) (published : List String) : Prop :=
  faults.dataFiles ≠ none ∨ files.names = [] ∨
    match faults.loadTable with
    | some _ => faults.lakeSchema ≠ none ∨ Restored faults files.names published
    | none => faults.inspect ≠ none ∨ published ⊆ files.names ∨ faults.lakeSchema ≠ none ∨
        faults.dropTable ≠ none ∨ Replaced faults files.names

theorem kept_self : Kept files state state := fun _ hold => Or.inl hold

/-- A refresh of a table that has been taken for unpublished. -/
theorem kept_copyAll_iff (hregistered : state.registered = some published)
    (hintact : ∀ name ∈ published, state.has name = true) :
    Kept files state (copyAll faults files.names state).2 ↔ Restored faults files.names published := by
  have hafter : (copyAll faults files.names state).2.registered = some published :=
    copyAll_registered hregistered
  rw [kept_iff_of_intact hregistered hintact, ← has_copyAll_iff hintact,
    intact_iff_of_registered hafter, intact_iff_of_registered hafter]
  constructor
  · intro hcases
    rcases hcases with ⟨-, hhas⟩ | ⟨hsame, hhas⟩
    · exact hhas
    · exact fun name hname => hhas name ((hsame name).mp hname)
  · intro hhas
    exact Or.inl ⟨fun _ => Iff.rfl, hhas⟩

/-- A refresh of a table that has been dropped. -/
theorem kept_dropped_iff (hregistered : state.registered = some published)
    (hintact : ∀ name ∈ published, state.has name = true) (hpublished : published ≠ [])
    (hnames : files.names ≠ []) :
    Kept files state (copyAll faults files.names { state with registered := none }).2 ↔
      Replaced faults files.names := by
  have hdirectory : state.directory ≠ none := by
    obtain ⟨first, hfirst⟩ := List.exists_mem_of_ne_nil published hpublished
    intro hnone
    have hhas := hintact first hfirst
    rw [has_of_directory_none hnone] at hhas
    cases hhas
  let dropped : TableState := { state with registered := none }
  obtain ⟨hnew, hempty⟩ : (Replaced faults files.names →
      (copyAll faults files.names dropped).2.Intact files.names) ∧
      (¬ Replaced faults files.names → OnlyEmpty (copyAll faults files.names dropped).2) :=
    copyAll_dropped rfl hdirectory
  rw [kept_iff_of_intact hregistered hintact]
  constructor
  · intro hcases
    by_contra hnot
    rcases hcases with hold | hlake
    · exact hpublished (hempty hnot published hold)
    · exact hnames (hempty hnot files.names hlake)
  · intro hreplaced
    exact Or.inr (hnew hreplaced)

/-- An attempt keeps a published table exactly when it is steady. -/
theorem kept_iff_steady (hregistered : state.registered = some published)
    (hintact : ∀ name ∈ published, state.has name = true) :
    Kept files state (publishOne faults files state).2 ↔ Steady faults files published := by
  unfold publishOne Steady
  cases hfiles : faults.dataFiles with
  | some exc => exact iff_of_true kept_self (Or.inl (Option.some_ne_none exc))
  | none =>
    dsimp only
    rw [or_iff_right (not_not.mpr rfl)]
    by_cases hnames : files.names = []
    · rw [if_pos hnames]
      exact iff_of_true kept_self (Or.inl hnames)
    · rw [if_neg hnames, or_iff_right hnames]
      unfold registeredNames
      rw [hregistered]
      cases hload : faults.loadTable with
      | some exc =>
        dsimp only
        unfold refresh
        cases hschema : faults.lakeSchema with
        | some exc => exact iff_of_true kept_self (Or.inl (Option.some_ne_none exc))
        | none =>
          rw [or_iff_right (not_not.mpr rfl)]
          exact kept_copyAll_iff hregistered hintact
      | none =>
        dsimp only
        cases hinspect : faults.inspect with
        | some exc => exact iff_of_true kept_self (Or.inl (Option.some_ne_none exc))
        | none =>
          dsimp only
          rw [or_iff_right (not_not.mpr rfl)]
          by_cases hsubset : published ⊆ files.names
          · rw [if_pos hsubset]
            apply iff_of_true _ (Or.inl hsubset)
            split
            · exact kept_self
            · rw [kept_iff_of_intact hregistered hintact]
              exact addNew_intact hregistered hintact hsubset
          · rw [if_neg hsubset, or_iff_right hsubset]
            have hpublished : published ≠ [] := by
              intro hempty
              rw [hempty] at hsubset
              exact hsubset (List.nil_subset _)
            unfold refresh
            cases hschema : faults.lakeSchema with
            | some exc => exact iff_of_true kept_self (Or.inl (Option.some_ne_none exc))
            | none =>
              rw [or_iff_right (not_not.mpr rfl), if_pos rfl]
              cases hdrop : faults.dropTable with
              | some exc => exact iff_of_true kept_self (Or.inl (Option.some_ne_none exc))
              | none =>
                rw [or_iff_right (not_not.mpr rfl)]
                exact kept_dropped_iff hregistered hintact hpublished hnames

/-! ## A whole publish -/

/-- Every attempt on a table that is published and intact is steady. -/
def EachSteady (lake : LakeSchema) : List Attempt → World → Prop
  | [], _ => True
  | attempt :: rest, world =>
    (∀ published, (world attempt.1).registered = some published →
      (∀ name ∈ published, (world attempt.1).has name = true) →
        Steady attempt.2 (lake.files attempt.1) published) ∧
      EachSteady lake rest (lake.attempt world attempt)

theorem eachKept_iff (lake : LakeSchema) (made : List Attempt) (world : World) :
    EachKept lake made world ↔ EachSteady lake made world := by
  induction made generalizing world with
  | nil => exact Iff.rfl
  | cons attempt rest ih =>
    unfold EachKept EachSteady
    rw [ih]
    apply and_congr_left'
    have hself : lake.attempt world attempt attempt.1 =
        (publishOne attempt.2 (lake.files attempt.1) (world attempt.1)).2 :=
      Function.update_self ..
    rw [hself]
    constructor
    · intro hkept published hregistered hintact
      exact (kept_iff_steady hregistered hintact).mp hkept
    · intro hsteady old hold
      obtain ⟨⟨published, hregistered, hsame⟩, hhas⟩ := hold
      have hintact : ∀ name ∈ published, (world attempt.1).has name = true := fun name hname =>
        hhas name ((hsame name).mp hname)
      exact (kept_iff_steady hregistered hintact).mpr (hsteady published hregistered hintact) old
        ⟨⟨published, hregistered, hsame⟩, hhas⟩

/-- What every attempt keeps is kept by all of them. -/
theorem kept_publishTables {lake : LakeSchema} {made : List Attempt} {world : World}
    {results : Dict String String} (heach : EachKept lake made world) (table : String) :
    Kept (lake.files table) (world table) ((publishTables lake made world results).2 table) := by
  induction made generalizing world results with
  | nil => exact kept_self
  | cons attempt rest ih =>
    obtain ⟨hfirst, hrest⟩ := heach
    have hstep : Kept (lake.files table) (world table) (lake.attempt world attempt table) := by
      by_cases htable : table = attempt.1
      · rw [htable]
        exact hfirst
      · have hother : lake.attempt world attempt table = world table :=
          Function.update_of_ne htable ..
        rw [hother]
        exact kept_self
    have hlater : Kept (lake.files table) (lake.attempt world attempt table)
        ((publishTables lake (attempt :: rest) world results).2 table) := ih hrest
    intro old hold
    rcases hstep old hold with hkept | hnew
    · exact hlater old hkept
    · exact Or.inr ((hlater _ hnew).elim id id)

/-- A publish is all or nothing for each table exactly when all of its attempts are steady. -/
theorem allOrNothing_iff_steady (opening : Opening) (lake : LakeSchema) (schema : String)
    (tables : Option (List String)) (faults : ℕ → Faults) (world : World) :
    AllOrNothing lake (attempts opening lake schema tables faults) world
        (publish opening lake schema tables faults world).2 ↔
      ∀ made, attempts opening lake schema tables faults = .ok made → EachSteady lake made world := by
  constructor
  · intro hall made hmade
    exact (eachKept_iff lake made world).mp (hall.each made hmade)
  · intro hsteady
    have heach : ∀ made, attempts opening lake schema tables faults = .ok made →
        EachKept lake made world := fun made hmade =>
      (eachKept_iff lake made world).mpr (hsteady made hmade)
    apply AllOrNothing.mk heach
    intro table
    unfold publish
    split
    · exact kept_self
    next made hmade => exact kept_publishTables (heach made hmade) table

/-- Nothing raises. -/
def noFaults : Faults :=
  ⟨none, none, none, none, none, none, none, fun _ => none, none, none, none⟩

/-- A table is lost when a file of its new version cannot be copied. -/
theorem not_allOrNothing_of_failed_copy :
    ¬ ∀ opening lake schema tables faults world,
      AllOrNothing lake (attempts opening lake schema tables faults) world
        (publish opening lake schema tables faults world).2 := by
  intro hclaim
  let lake : LakeSchema := ⟨["orders"], fun _ => ⟨["new.parquet"], by decide⟩⟩
  let faults : Faults := { noFaults with copy := fun _ => some ("No space left on device", false) }
  let world : World := fun _ => ⟨some ["old.parquet"], some [("old.parquet", true)]⟩
  have hafter := (hclaim ⟨none, none, none⟩ lake "marts" none (fun _ => faults) world).after "orders"
    ["old.parquet"] ⟨⟨["old.parquet"], rfl, fun _ => Iff.rfl⟩, by decide⟩
  have hlost : ((publish ⟨none, none, none⟩ lake "marts" none (fun _ => faults) world).2
      "orders").registered = none := by decide +kernel
  rcases hafter with hold | hnew
  · exact not_intact_of_unregistered hlost hold
  · exact not_intact_of_unregistered hlost hnew

end DbtCraft.Ingest.Iceberg

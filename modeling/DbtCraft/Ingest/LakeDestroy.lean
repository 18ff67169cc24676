/-
# Deleting a lake

`destroy` of `ingest/lakehouse.py`: the schema of the catalog is dropped, then the files
are removed. Each step may fail, and the second one does not look at how the first one ended.
-/

import DbtCraft.Ingest.AttachString
import DbtCraft.Ingest.LakePaths

namespace DbtCraft.Ingest.Lakehouse

open DbtCraft.Python DbtCraft.Python.Url

/-! ## The two stores -/

/-- The disk, and the schemas of the database that the catalog URL names. -/
structure World where
  disk : Disk
  schemas : List String

/-- What fails while a lake is deleted. A statement that fails has no effect. -/
structure Faults where
  /-- `duckdb.connect()` raises. -/
  connect : Option Raised
  /-- `LOAD postgres` raises. -/
  load : Option String
  attach : Option String
  dropSchema : Option String
  /-- `connection.close()` raises. -/
  close : Option Raised
  /-- The entries that cannot be removed. -/
  stuck : Location → Bool
  /-- `rmtree` raises, after it has removed what it can. -/
  rmtree : Option String

/-- An entry that cannot be removed lies there or below. -/
def Faults.held (faults : Faults) (disk : Disk) (entry : Location) : Bool :=
  (disk.nodes.map (·.1) ++ disk.links.map (·.1)).any fun other =>
    entry.isPrefixOf other && faults.stuck other

/-- Where the files of a lake are. -/
def dataRoot (disk : Disk) (lake : LakeRef) : Option Location :=
  disk.resolve (Path.ofString lake.dataPath)

/-- The entry is removed by `shutil.rmtree(lake.data_path, ignore_errors=True)`, which does
nothing with a link. -/
def removes (faults : Faults) (disk : Disk) (lake : LakeRef) (entry : Location) : Bool :=
  match dataRoot disk lake with
  | none => false
  | some root =>
    !disk.isLink (Path.ofString lake.dataPath) && root.isPrefixOf entry && !faults.held disk entry

/-- The disk after `rmtree`. -/
def afterRmtree (faults : Faults) (disk : Disk) (lake : LakeRef) : Disk :=
  { disk with
    nodes := disk.nodes.filter fun node => !removes faults disk lake node.1
    links := disk.links.filter fun link => !removes faults disk lake link.1 }

/-! ## The steps -/

/-- `str(exc)`. -/
def messageOf : Raised → String
  | .lakehouse message | .valueError message => message
  | _ => ""

/-- The entry of a step that has raised. -/
def failed (message : String) : String := "failed: " ++ message

/-- The first `try` block. -/
def dropCatalog (tables : Tables) (faults : Faults) (schema : String) (lake : LakeRef)
    (world : World) : String × World :=
  match faults.load with
  | some exc => (failed exc, world)
  | none =>
    match urlparse tables lake.catalogUrl.toList with
    | none => (failed (messageOf invalidUrl), world)
    | some parsed =>
      if baseScheme parsed ∉ ["postgres", "postgresql"] then
        ("skipped: not a postgres catalog", world)
      else
        match postgresAttachString tables lake.catalogUrl.toList, faults.attach,
          faults.dropSchema with
        | .error raised, _, _ => (failed (messageOf raised), world)
        | .ok _, some exc, _ | .ok _, none, some exc => (failed exc, world)
        | .ok _, none, none =>
          ("ok", { world with schemas := world.schemas.filter (· ≠ schema) })

/-- The second `try` block. -/
def deleteFiles (faults : Faults) (lake : LakeRef) (world : World) : String × World :=
  if isObjectStorage lake.dataPath then ("skipped: object storage", world)
  else
    let after := { world with disk := afterRmtree faults world.disk lake }
    match faults.rmtree with
    | none => ("ok", after)
    | some exc => (failed exc, after)

/-- `destroy`. -/
def destroy (tables : Tables) (faults : Faults) (lake : LakeRef) (world : World) :
    Except Raised (Dict String String) × World :=
  match destroyGuard lake, validateMetadataSchema lake.metadataSchema, faults.connect with
  | .error raised, _, _ | .ok (), .error raised, _ | .ok (), .ok _, some raised =>
    (.error raised, world)
  | .ok (), .ok schema, none =>
    let dropped := dropCatalog tables faults schema lake world
    match faults.close with
    | some raised => (.error raised, dropped.2)
    | none =>
      let deleted := deleteFiles faults lake dropped.2
      (.ok [("drop_schema", dropped.1), ("delete_files", deleted.1)], deleted.2)

/-! ## What is left -/

/-- Where the metadata of a lake is kept. -/
inductive Catalog
  | schema (name : String)
  | file (location : Location)
  | /-- A URL that no lake is attached by. -/
    nowhere
  deriving DecidableEq

/-- The catalog that `attach_string` leads to. -/
def catalogOf (tables : Tables) (disk : Disk) (lake : LakeRef) : Catalog :=
  match urlparse tables lake.catalogUrl.toList with
  | none => .nowhere
  | some parsed =>
    if baseScheme parsed ∈ ["postgres", "postgresql"] then
      .schema (strip lake.metadataSchema)
    else if baseScheme parsed ∈ ["sqlite", "file", ""] then
      let path := if parsed.path = [] then lake.catalogUrl.toList else parsed.path
      match disk.resolve (Path.ofString ("/" ++ String.ofList (withoutSlashes path))) with
      | some location => .file location
      | none => .nowhere
    else .nowhere

/-- The metadata is there. -/
def Catalog.existsIn (catalog : Catalog) (world : World) : Bool :=
  match catalog with
  | .schema name => world.schemas.contains name
  | .file location => (world.disk.nodes.map (·.1)).contains location
  | .nowhere => false

/-- The files of a lake. -/
def dataEntries (disk : Disk) (lake : LakeRef) : List Location :=
  match dataRoot disk lake with
  | none => []
  | some root => (disk.nodes.map (·.1)).filter root.isPrefixOf

/-- What has been removed and what is reported after a lake has been deleted. -/
structure Truthful (tables : Tables) (lake : LakeRef) (before after : World)
    (result : Except Raised (Dict String String)) : Prop where
  /-- No catalog points at files that are gone. -/
  catalog : (∃ entry ∈ dataEntries before.disk lake, entry ∉ after.disk.nodes.map (·.1)) →
    (catalogOf tables before.disk lake).existsIn after = false
  dropSchema : ∀ report, result = .ok report →
    (report.get "drop_schema" = some "ok" → strip lake.metadataSchema ∉ after.schemas) ∧
    (report.get "drop_schema" ≠ some "ok" → after.schemas = before.schemas)
  /-- A removal that is not reported as done has left something. -/
  deleteFiles : ∀ report, result = .ok report →
    (report.get "delete_files" = some "ok" →
      ∀ entry ∈ dataEntries before.disk lake, entry ∉ after.disk.nodes.map (·.1)) ∧
    (report.get "delete_files" ≠ some "ok" →
      dataEntries before.disk lake = [] ∨
        ∃ entry ∈ dataEntries before.disk lake, entry ∈ after.disk.nodes.map (·.1))

variable {tables : Tables} {faults : Faults} {lake : LakeRef} {world : World} {entry : Location}

/-! ## One step at a time -/

theorem failed_ne_ok (message : String) : failed message ≠ "ok" := by
  intro hsame
  have hletters := congrArg String.toList hsame
  rw [failed, String.toList_append] at hletters
  have hfirst : some 'f' = some 'o' := congrArg List.head? hletters
  exact absurd hfirst (by decide)

theorem mem_afterRmtree (hentry : entry ∈ world.disk.nodes.map (·.1)) :
    entry ∈ (afterRmtree faults world.disk lake).nodes.map (·.1) ↔
      removes faults world.disk lake entry = false := by
  obtain ⟨node, hnode, hsame⟩ := List.mem_map.mp hentry
  unfold afterRmtree
  constructor
  · intro hafter
    obtain ⟨other, hother, hlocation⟩ := List.mem_map.mp hafter
    have hkept := (List.mem_filter.mp hother).2
    rw [hlocation, Bool.not_eq_true'] at hkept
    exact hkept
  · intro hkept
    apply List.mem_map.mpr
    refine ⟨node, List.mem_filter.mpr ⟨hnode, ?_⟩, hsame⟩
    rw [hsame, hkept]
    rfl

theorem mem_nodes_of_mem_dataEntries (hentry : entry ∈ dataEntries world.disk lake) :
    entry ∈ world.disk.nodes.map (·.1) := by
  unfold dataEntries at hentry
  split at hentry
  · cases hentry
  · exact List.mem_of_mem_filter hentry

/-- Every statement on the catalog of a lake succeeds. -/
def DropsSchema (tables : Tables) (faults : Faults) (lake : LakeRef) : Prop :=
  faults.load = none ∧ faults.attach = none ∧ faults.dropSchema = none ∧
    ∃ text, postgresAttachString tables lake.catalogUrl.toList = .ok text

/-- The first step drops the schema, or reports that it has not and changes nothing. -/
theorem dropCatalog_cases (tables : Tables) (faults : Faults) (schema : String) (lake : LakeRef)
    (world : World) :
    (dropCatalog tables faults schema lake world =
        ("ok", { world with schemas := world.schemas.filter (· ≠ schema) }) ∧
      DropsSchema tables faults lake ∧
      catalogOf tables world.disk lake = .schema (strip lake.metadataSchema)) ∨
    (∃ message, message ≠ "ok" ∧ dropCatalog tables faults schema lake world = (message, world) ∧
      (catalogOf tables world.disk lake = .schema (strip lake.metadataSchema) →
        ¬ DropsSchema tables faults lake)) := by
  unfold dropCatalog
  split
  next exc hload =>
    right
    refine ⟨_, failed_ne_ok exc, rfl, fun _ hdrops => ?_⟩
    rw [hdrops.1] at hload
    cases hload
  next hload =>
    split
    next hparse =>
      right
      refine ⟨_, failed_ne_ok _, rfl, fun hcatalog => ?_⟩
      rw [catalogOf, hparse] at hcatalog
      cases hcatalog
    next parsed hparse =>
      split
      next hscheme =>
        right
        refine ⟨_, by decide, rfl, fun hcatalog => ?_⟩
        unfold catalogOf at hcatalog
        rw [hparse] at hcatalog
        dsimp only at hcatalog
        rw [if_neg hscheme] at hcatalog
        split at hcatalog
        · split at hcatalog <;> cases hcatalog
        · cases hcatalog
      next hscheme =>
        have hcatalog : catalogOf tables world.disk lake =
            .schema (strip lake.metadataSchema) := by
          unfold catalogOf
          rw [hparse]
          exact if_pos (not_not.mp hscheme)
        split
        next raised hstring =>
          right
          refine ⟨_, failed_ne_ok _, rfl, fun _ hdrops => ?_⟩
          obtain ⟨-, -, -, text, htext⟩ := hdrops
          rw [hstring] at htext
          cases htext
        next text exc hstring hattach =>
          right
          refine ⟨_, failed_ne_ok exc, rfl, fun _ hdrops => ?_⟩
          rw [hdrops.2.1] at hattach
          cases hattach
        next text exc hstring hattach hdrop =>
          right
          refine ⟨_, failed_ne_ok exc, rfl, fun _ hdrops => ?_⟩
          rw [hdrops.2.2.1] at hdrop
          cases hdrop
        next text hstring hattach hdrop =>
          left
          exact ⟨rfl, ⟨hload, hattach, hdrop, text, hstring⟩, hcatalog⟩

/-! ## Deleting in order -/

/-- The metadata is not there once the files have been removed. -/
def CatalogGone (tables : Tables) (faults : Faults) (lake : LakeRef) (world : World) : Prop :=
  match catalogOf tables world.disk lake with
  | .schema name => name ∉ world.schemas ∨ DropsSchema tables faults lake
  | .file location =>
    location ∉ world.disk.nodes.map (·.1) ∨ removes faults world.disk lake location = true
  | .nowhere => True

/-- `rmtree` says truly whether it has removed everything. -/
def RemovalTold (faults : Faults) (lake : LakeRef) (world : World) : Prop :=
  match faults.rmtree with
  | none => ∀ entry ∈ dataEntries world.disk lake, removes faults world.disk lake entry = true
  | some _ => dataEntries world.disk lake = [] ∨
      ∃ entry ∈ dataEntries world.disk lake, removes faults world.disk lake entry = false

/-- Nothing is deleted, or the metadata goes before the first file does and no file stays
behind unsaid. -/
def Orderly (tables : Tables) (faults : Faults) (lake : LakeRef) (world : World) : Prop :=
  isObjectStorage lake.dataPath = true ∨
    ((∃ entry ∈ dataEntries world.disk lake, removes faults world.disk lake entry = true) →
      CatalogGone tables faults lake world) ∧ RemovalTold faults lake world

theorem validateMetadataSchema_eq {schema : String}
    (hschema : validateMetadataSchema lake.metadataSchema = .ok schema) :
    schema = strip lake.metadataSchema := by
  unfold validateMetadataSchema at hschema
  dsimp only at hschema
  split at hschema
  · exact (Except.ok.inj hschema).symm
  · cases hschema

/-- The metadata of a lake after its schema has been dropped or not, and its files removed. -/
theorem existsIn_after {after : World} (hdisk : after.disk = afterRmtree faults world.disk lake)
    (hschemas : (after.schemas = world.schemas.filter (· ≠ strip lake.metadataSchema) ∧
        DropsSchema tables faults lake) ∨
      (after.schemas = world.schemas ∧
        (catalogOf tables world.disk lake = .schema (strip lake.metadataSchema) →
          ¬ DropsSchema tables faults lake))) :
    (catalogOf tables world.disk lake).existsIn after = false ↔
      CatalogGone tables faults lake world := by
  unfold CatalogGone
  cases hcatalog : catalogOf tables world.disk lake with
  | nowhere => exact iff_of_true rfl trivial
  | file location =>
    show (after.disk.nodes.map (·.1)).contains location = false ↔ _
    rw [← Bool.not_eq_true, List.contains_iff_mem, hdisk]
    by_cases hlocation : location ∈ world.disk.nodes.map (·.1)
    · rw [mem_afterRmtree hlocation, Bool.not_eq_false]
      simp [hlocation]
    · have hafter : location ∉ (afterRmtree faults world.disk lake).nodes.map (·.1) := by
        intro hmem
        obtain ⟨node, hnode, hsame⟩ := List.mem_map.mp hmem
        exact hlocation (List.mem_map.mpr ⟨node, List.mem_of_mem_filter hnode, hsame⟩)
      exact iff_of_true hafter (Or.inl hlocation)
  | schema name =>
    have hname : name = strip lake.metadataSchema := by
      unfold catalogOf at hcatalog
      split at hcatalog
      · cases hcatalog
      · split at hcatalog
        · exact (Catalog.schema.inj hcatalog).symm
        · split at hcatalog
          · dsimp only at hcatalog
            split at hcatalog <;> cases hcatalog
          · cases hcatalog
    show after.schemas.contains name = false ↔ _
    rw [← Bool.not_eq_true, List.contains_iff_mem, hname]
    rcases hschemas with ⟨hafter, hdrops⟩ | ⟨hafter, hdrops⟩
    · have hgone : strip lake.metadataSchema ∉ after.schemas := by
        rw [hafter]
        intro hmem
        exact of_decide_eq_true (List.mem_filter.mp hmem).2 rfl
      exact iff_of_true hgone (Or.inr hdrops)
    · show _ ↔ strip lake.metadataSchema ∉ world.schemas ∨ DropsSchema tables faults lake
      rw [hafter, or_iff_left (hdrops (by rw [hcatalog, hname]))]

/-- What is told of the files after they have been removed. -/
theorem deleteFiles_told (faults : Faults) (hlocal : isObjectStorage lake.dataPath = false) {dropped : World}
    (hdropped : dropped.disk = world.disk) :
    let deleted := deleteFiles faults lake dropped
    deleted.2 = { dropped with disk := afterRmtree faults world.disk lake } ∧
      (((deleted.1 = "ok" → ∀ entry ∈ dataEntries world.disk lake,
          entry ∉ deleted.2.disk.nodes.map (·.1)) ∧
        (deleted.1 ≠ "ok" → dataEntries world.disk lake = [] ∨
          ∃ entry ∈ dataEntries world.disk lake, entry ∈ deleted.2.disk.nodes.map (·.1))) ↔
        RemovalTold faults lake world) := by
  intro deleted
  have hafter : ∀ entry ∈ dataEntries world.disk lake,
      (entry ∈ (afterRmtree faults world.disk lake).nodes.map (·.1) ↔
        removes faults world.disk lake entry = false) := fun entry hentry =>
    mem_afterRmtree (mem_nodes_of_mem_dataEntries hentry)
  have hworld : deleted.2 = { dropped with disk := afterRmtree faults world.disk lake } := by
    show (deleteFiles faults lake dropped).2 = _
    unfold deleteFiles
    rw [hlocal, if_neg Bool.false_ne_true, hdropped]
    cases faults.rmtree <;> rfl
  apply And.intro hworld
  rw [hworld]
  unfold RemovalTold
  cases hrmtree : faults.rmtree with
  | none =>
    have hentry : deleted.1 = "ok" := by
      show (deleteFiles faults lake dropped).1 = _
      unfold deleteFiles
      rw [hlocal, if_neg Bool.false_ne_true, hrmtree]
    rw [hentry]
    constructor
    · intro htold entry hmem
      have hgone := (hafter entry hmem).not.mp (htold.1 rfl entry hmem)
      exact (Bool.not_eq_false _).mp hgone
    · intro hall
      apply And.intro
      · intro _ entry hmem
        rw [hafter entry hmem, hall entry hmem]
        exact Bool.true_eq_false.mp
      · intro hother
        exact absurd rfl hother
  | some exc =>
    have hentry : deleted.1 ≠ "ok" := by
      have hfailed : deleted.1 = failed exc := by
        show (deleteFiles faults lake dropped).1 = _
        unfold deleteFiles
        rw [hlocal, if_neg Bool.false_ne_true, hrmtree]
      rw [hfailed]
      exact failed_ne_ok exc
    constructor
    · intro htold
      rcases htold.2 hentry with hnone | ⟨entry, hmem, hleft⟩
      · exact Or.inl hnone
      · exact Or.inr ⟨entry, hmem, (hafter entry hmem).mp hleft⟩
    · intro hcases
      apply And.intro
      · intro hok
        exact absurd hok hentry
      · intro _
        rcases hcases with hnone | ⟨entry, hmem, hleft⟩
        · exact Or.inl hnone
        · exact Or.inr ⟨entry, hmem, (hafter entry hmem).mpr hleft⟩

/-- The lake is a managed one with a valid schema, and the connection opens and closes. -/
def Completes (faults : Faults) (lake : LakeRef) : Prop :=
  lake.managed = true ∧ isSchemaName (strip lake.metadataSchema).toList = true ∧
    faults.connect = none ∧ faults.close = none

/-- A lake whose deletion raises has lost no file. -/
theorem truthful_of_raised {after : World} {raised : Raised} (hdisk : after.disk = world.disk) :
    Truthful tables lake world after (.error raised) := by
  constructor
  · intro hremoved
    obtain ⟨entry, hentry, hgone⟩ := hremoved
    rw [hdisk] at hgone
    exact absurd (mem_nodes_of_mem_dataEntries hentry) hgone
  · intro report hreport
    cases hreport
  · intro report hreport
    cases hreport

/-- What the first step has done to the schemas, and says. -/
def DropTold (tables : Tables) (faults : Faults) (lake : LakeRef) (world : World)
    (dropped : String × World) : Prop :=
  dropped.2.disk = world.disk ∧
    ((dropped.1 = "ok" ∧ dropped.2.schemas = world.schemas.filter (· ≠ strip lake.metadataSchema) ∧
        DropsSchema tables faults lake) ∨
      (dropped.1 ≠ "ok" ∧ dropped.2.schemas = world.schemas ∧
        (catalogOf tables world.disk lake = .schema (strip lake.metadataSchema) →
          ¬ DropsSchema tables faults lake)))

theorem dropTold_dropCatalog (tables : Tables) (faults : Faults) (lake : LakeRef) (world : World) :
    DropTold tables faults lake world
      (dropCatalog tables faults (strip lake.metadataSchema) lake world) := by
  rcases dropCatalog_cases tables faults (strip lake.metadataSchema) lake world with
    ⟨hdropped, hdrops, -⟩ | ⟨message, hmessage, hdropped, hnot⟩
  · rw [hdropped]
    exact ⟨rfl, Or.inl ⟨rfl, rfl, hdrops⟩⟩
  · rw [hdropped]
    exact ⟨rfl, Or.inr ⟨hmessage, rfl, hnot⟩⟩

/-- The entry for the schema is true. -/
theorem dropSchema_told {dropped : String × World} (hdropped : DropTold tables faults lake world dropped) :
    (dropped.1 = "ok" → strip lake.metadataSchema ∉ dropped.2.schemas) ∧
      (dropped.1 ≠ "ok" → dropped.2.schemas = world.schemas) := by
  rcases hdropped.2 with ⟨hok, hschemas, -⟩ | ⟨hother, hschemas, -⟩
  · constructor
    · intro _ hmem
      rw [hschemas] at hmem
      exact of_decide_eq_true (List.mem_filter.mp hmem).2 rfl
    · intro hother
      exact absurd hok hother
  · exact ⟨fun hok => absurd hok hother, fun _ => hschemas⟩

/-- What has happened when the deletion of a lake returns. -/
theorem truthful_returned_iff {dropped : String × World}
    (hdropped : DropTold tables faults lake world dropped) :
    Truthful tables lake world (deleteFiles faults lake dropped.2).2
        (.ok [("drop_schema", dropped.1), ("delete_files", (deleteFiles faults lake dropped.2).1)]) ↔
      Orderly tables faults lake world := by
  have hdrop := dropSchema_told hdropped
  cases hstorage : isObjectStorage lake.dataPath with
  | true =>
    have hdeleted : deleteFiles faults lake dropped.2 =
        ("skipped: object storage", dropped.2) := by
      rw [deleteFiles, if_pos hstorage]
    rw [hdeleted]
    apply iff_of_true _ (Or.inl hstorage)
    have hkept : ∀ entry ∈ dataEntries world.disk lake,
        entry ∈ dropped.2.disk.nodes.map (·.1) := by
      intro entry hentry
      rw [hdropped.1]
      exact mem_nodes_of_mem_dataEntries hentry
    constructor
    · intro hremoved
      obtain ⟨entry, hentry, hgone⟩ := hremoved
      exact absurd (hkept entry hentry) hgone
    · intro report hreport
      rw [← Except.ok.inj hreport]
      exact ⟨fun hok => hdrop.1 (Option.some_inj.mp hok), fun hother =>
        hdrop.2 fun hok => hother (congrArg some hok)⟩
    · intro report hreport
      rw [← Except.ok.inj hreport]
      constructor
      · intro hok
        have hentry : "skipped: object storage" = "ok" := Option.some_inj.mp hok
        exact absurd hentry (by decide)
      · intro _
        cases hentries : dataEntries world.disk lake with
        | nil => exact Or.inl rfl
        | cons entry rest =>
          have hmem : entry ∈ dataEntries world.disk lake := hentries ▸ List.mem_cons_self
          exact Or.inr ⟨entry, List.mem_cons_self, hkept entry hmem⟩
  | false =>
    obtain ⟨hworld, htold⟩ := deleteFiles_told faults hstorage hdropped.1
    have hdisk : (deleteFiles faults lake dropped.2).2.disk = afterRmtree faults world.disk lake := by
      rw [hworld]
    have hschemas : (deleteFiles faults lake dropped.2).2.schemas = dropped.2.schemas := by
      rw [hworld]
    have hexists : (catalogOf tables world.disk lake).existsIn
        (deleteFiles faults lake dropped.2).2 = false ↔ CatalogGone tables faults lake world := by
      apply existsIn_after hdisk
      rw [hschemas]
      rcases hdropped.2 with ⟨-, hafter, hdrops⟩ | ⟨-, hafter, hdrops⟩
      · exact Or.inl ⟨hafter, hdrops⟩
      · exact Or.inr ⟨hafter, hdrops⟩
    have hremoved : (∃ entry ∈ dataEntries world.disk lake,
        entry ∉ (deleteFiles faults lake dropped.2).2.disk.nodes.map (·.1)) ↔
        ∃ entry ∈ dataEntries world.disk lake, removes faults world.disk lake entry = true := by
      apply exists_congr
      intro entry
      apply and_congr_right
      intro hentry
      rw [hdisk, mem_afterRmtree (mem_nodes_of_mem_dataEntries hentry), Bool.not_eq_false]
    constructor
    · intro htruthful
      right
      constructor
      · intro hsome
        exact hexists.mp (htruthful.catalog (hremoved.mpr hsome))
      · have hreport := htruthful.deleteFiles _ rfl
        exact htold.mp ⟨fun hok => hreport.1 (congrArg some hok), fun hother =>
          hreport.2 fun hok => hother (Option.some_inj.mp hok)⟩
    · intro horderly
      rcases horderly with hobject | ⟨hcatalog, hremoval⟩
      · rw [hstorage] at hobject
        cases hobject
      · constructor
        · intro hsome
          exact hexists.mpr (hcatalog (hremoved.mp hsome))
        · intro report hreport
          rw [← Except.ok.inj hreport, hschemas]
          exact ⟨fun hok => hdrop.1 (Option.some_inj.mp hok), fun hother =>
            hdrop.2 fun hok => hother (congrArg some hok)⟩
        · intro report hreport
          rw [← Except.ok.inj hreport]
          have hfiles := htold.mpr hremoval
          exact ⟨fun hok => hfiles.1 (Option.some_inj.mp hok), fun hother =>
            hfiles.2 fun hok => hother (congrArg some hok)⟩

/-- A deletion leaves no dangling catalog and tells the truth exactly when it raises before the
files are removed or goes on in order. -/
theorem truthful_iff_orderly (tables : Tables) (faults : Faults) (lake : LakeRef) (world : World) :
    Truthful tables lake world (destroy tables faults lake world).2
        (destroy tables faults lake world).1 ↔
      (Completes faults lake → Orderly tables faults lake world) := by
  have hguard : destroyGuard lake = .ok () ↔ lake.managed = true := by
    unfold destroyGuard
    split_ifs with hmanaged <;> simp [hmanaged]
  have hname : (∃ schema, validateMetadataSchema lake.metadataSchema = .ok schema) ↔
      isSchemaName (strip lake.metadataSchema).toList = true := by
    unfold validateMetadataSchema
    dsimp only
    split_ifs with hvalid <;> simp [hvalid]
  unfold Completes
  rw [← hguard, ← hname]
  unfold destroy
  split
  next raised hrefused =>
    apply iff_of_true (truthful_of_raised rfl)
    intro hcompletes
    rw [hrefused] at hcompletes
    cases hcompletes.1
  next raised hmanaged hinvalid =>
    apply iff_of_true (truthful_of_raised rfl)
    intro hcompletes
    obtain ⟨schema, hschema⟩ := hcompletes.2.1
    rw [hinvalid] at hschema
    cases hschema
  next raised hmanaged schema hschema hconnect =>
    apply iff_of_true (truthful_of_raised rfl)
    intro hcompletes
    rw [hconnect] at hcompletes
    cases hcompletes.2.2.1
  next schema hmanaged hschema hconnect =>
    rw [validateMetadataSchema_eq hschema]
    have hdropped := dropTold_dropCatalog tables faults lake world
    dsimp only
    cases hclose : faults.close with
    | some raised =>
      apply iff_of_true (truthful_of_raised hdropped.1)
      intro hcompletes
      cases hcompletes.2.2.2
    | none =>
      have hiff := truthful_returned_iff hdropped
      rw [hiff]
      constructor
      · intro horderly _
        exact horderly
      · intro horderly
        exact horderly ⟨hmanaged, ⟨schema, hschema⟩, hconnect, rfl⟩

/-- Nothing fails. -/
def noFaults : Faults := ⟨none, none, none, none, none, fun _ => false, none⟩

/-- The catalog of a lake in a sqlite file is left without its files. -/
theorem not_truthful_of_sqlite :
    ¬ ∀ (tables : Tables) (faults : Faults) (lake : LakeRef) (world : World), lake.managed = true →
      Truthful tables lake world (destroy tables faults lake world).2
        (destroy tables faults lake world).1 := by
  intro hclaim
  let tables : Tables := ⟨fun _ => false, id⟩
  let lake : LakeRef :=
    { catalogUrl := "sqlite:///srv/catalog.sqlite", dataPath := "/data/lake",
      metadataSchema := "lake_4f1c" }
  let world : World :=
    ⟨⟨[], [], [(["srv", "catalog.sqlite"], .file ⟨#[]⟩), (["data", "lake"], .directory),
      (["data", "lake", "orders.parquet"], .file ⟨#[]⟩)], 0, ""⟩, []⟩
  have htruthful := hclaim tables noFaults lake world rfl
  have hremoved : ∃ entry ∈ dataEntries world.disk lake,
      entry ∉ (destroy tables noFaults lake world).2.disk.nodes.map (·.1) := by decide +kernel
  exact absurd (htruthful.catalog hremoved) (by decide +kernel)

end DbtCraft.Ingest.Lakehouse

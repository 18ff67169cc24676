/-
# Leftovers of dbt in a lake

The first step of `lakehouse.maintain`: the tables whose names match a `LIKE` pattern are
dropped one by one, each by a statement that quotes the names of the catalog as they are.
The underscores of the pattern stand for any letter, and a statement that fails ends the
step. What DuckDB does with a statement that is not one `DROP` of one table is left open.
-/

import DbtCraft.Sql.Names
import Mathlib.Data.List.Nodup

namespace DbtCraft.Ingest.Lakehouse

open DbtCraft.Sql.Names

/-! ## Catalogs -/

/-- Letter by letter, in lower case: two names that agree so are the same for DuckDB. -/
def folded (name : List Char) : List Char := name.map Char.toLower

/-- A table of the attached lake; no name of a schema or table is empty. -/
structure LakeTable where
  schemaName : List Char
  tableName : List Char
  schemaName_ne : schemaName ≠ []
  tableName_ne : tableName ≠ []
  deriving DecidableEq

namespace LakeTable

/-- The names of a table as DuckDB looks them up. -/
def key (table : LakeTable) : List Char × List Char :=
  (folded table.schemaName, folded table.tableName)

/-- `__dbt_backup`. -/
def backupSuffix : List Char := "__dbt_backup".toList

/-- The table was left behind by dbt. -/
def IsLeftover (table : LakeTable) : Prop := backupSuffix <:+ table.tableName

instance (table : LakeTable) : Decidable table.IsLeftover :=
  inferInstanceAs (Decidable (_ <:+ _))

/-- `table_name LIKE '%__dbt_backup'`. -/
def isListed (table : LakeTable) : Bool := like ('%' :: backupSuffix) table.tableName

/-- The statement that drops a table. -/
def dropStatement (table : LakeTable) : List Char :=
  "DROP TABLE IF EXISTS lake.".toList ++ qualified table.schemaName table.tableName

/-- Neither name of the table has a double quote. -/
def IsPlain (table : LakeTable) : Prop :=
  '"' ∉ table.schemaName ∧ '"' ∉ table.tableName

end LakeTable

/-- The tables that `duckdb_tables()` lists for the lake. -/
structure LakeCatalog where
  tables : List LakeTable
  distinct : (tables.map LakeTable.key).Nodup

/-- The catalog without the table of these names, if there is one. -/
def LakeCatalog.drop (catalog : LakeCatalog) (schemaName tableName : List Char) : LakeCatalog where
  tables := catalog.tables.filter fun table => table.key ≠ (folded schemaName, folded tableName)
  distinct := catalog.distinct.sublist (List.filter_sublist.map _)

/-- The names in a statement that is one `DROP TABLE IF EXISTS` of one table of the lake. -/
def readDrop (statement : List Char) : Option (List Char × List Char) :=
  if "DROP TABLE IF EXISTS lake.".toList <+: statement then
    readQualified (statement.drop "DROP TABLE IF EXISTS lake.".length)
  else none

/-- DuckDB, as far as it is not the same for all: which drops it refuses, and what it does
with any other statement. An error comes with its text. -/
structure Database where
  refuses : List Char → List Char → Option String
  other : LakeCatalog → List Char → Except String LakeCatalog

/-- `connection.execute`. -/
def Database.execute (database : Database) (catalog : LakeCatalog) (statement : List Char) :
    Except String LakeCatalog :=
  match readDrop statement with
  | some (schemaName, tableName) =>
    match database.refuses schemaName tableName with
    | some message => .error message
    | none => .ok (catalog.drop schemaName tableName)
  | none => database.other catalog statement

/-! ## The step -/

/-- What the loop has done: the catalog it leaves, the statements it has sent, each with
the table that was listed, and the error that has ended it. -/
structure Dropped where
  catalog : LakeCatalog
  executed : List (LakeTable × List Char)
  error : Option String

/-- The loop over the tables that were listed. -/
def dropEach (database : Database) : List LakeTable → LakeCatalog → Dropped
  | [], catalog => ⟨catalog, [], none⟩
  | table :: rest, catalog =>
    match database.execute catalog table.dropStatement with
    | .error message => ⟨catalog, [(table, table.dropStatement)], some message⟩
    | .ok next =>
      let dropped := dropEach database rest next
      { dropped with executed := (table, table.dropStatement) :: dropped.executed }

/-- The tables that the query answers with. -/
def backups (catalog : LakeCatalog) : List LakeTable := catalog.tables.filter (·.isListed)

/-- The step `drop_dbt_backups` of `maintain`. -/
def dropBackups (database : Database) (catalog : LakeCatalog) : Dropped :=
  dropEach database (backups catalog) catalog

/-- The entry of the step in the results of `maintain`. -/
def dropReport (database : Database) (catalog : LakeCatalog) : String :=
  match (dropBackups database catalog).error with
  | some message => "skipped: " ++ message
  | none => "dropped " ++ toString (backups catalog).length

/-! ## The property -/

/-- Each statement is a single `DROP` of the table that was listed, a leftover of dbt, and
the tables that are left are those that are none. -/
structure DropsExactly (database : Database) (catalog : LakeCatalog) : Prop where
  statements : ∀ entry ∈ (dropBackups database catalog).executed,
    entry.1.IsLeftover ∧ readDrop entry.2 = some (entry.1.schemaName, entry.1.tableName)
  tables : (dropBackups database catalog).catalog.tables =
    catalog.tables.filter fun table => ¬ table.IsLeftover

/-- A table that is listed is a leftover, its names have no double quote, and DuckDB does
not refuse to drop it. -/
def Droppable (database : Database) (table : LakeTable) : Prop :=
  table.IsLeftover ∧ table.IsPlain ∧ database.refuses table.schemaName table.tableName = none

/-! ## Statements -/

variable {database : Database} {catalog : LakeCatalog} {table : LakeTable}
  {listed : List LakeTable}

theorem readDrop_dropStatement : readDrop table.dropStatement =
    readQualified (qualified table.schemaName table.tableName) := by
  unfold readDrop LakeTable.dropStatement
  rw [if_pos (List.prefix_append _ _)]
  exact congrArg readQualified (List.drop_left' rfl)

/-- The statement for a table drops that table if its names are plain, and only then. -/
theorem readDrop_eq_iff :
    readDrop table.dropStatement = some (table.schemaName, table.tableName) ↔ table.IsPlain := by
  rw [readDrop_dropStatement,
    readQualified_qualified_iff table.schemaName_ne table.tableName_ne]
  rfl

/-- The literal ending is one that the pattern lets through. -/
theorem isListed_of_isLeftover (hleftover : table.IsLeftover) : table.isListed := by
  unfold LakeTable.isListed
  rw [like_percent]
  exact ⟨_, hleftover, like_self (by decide)⟩

theorem execute_of_droppable (hdroppable : Droppable database table) :
    database.execute catalog table.dropStatement =
      .ok (catalog.drop table.schemaName table.tableName) := by
  obtain ⟨-, hplain, hrefuses⟩ := hdroppable
  unfold Database.execute
  rw [readDrop_eq_iff.mpr hplain]
  dsimp only
  rw [hrefuses]

/-! ## The loop -/

/-- Tables that can all be dropped are dropped, each by its own statement. -/
theorem dropEach_of_droppable (hlisted : ∀ table ∈ listed, Droppable database table) :
    (dropEach database listed catalog).executed =
        listed.map (fun table => (table, table.dropStatement)) ∧
      (dropEach database listed catalog).catalog.tables =
        catalog.tables.filter fun table => ∀ gone ∈ listed, table.key ≠ gone.key := by
  induction listed generalizing catalog with
  | nil => exact ⟨rfl, by simp [dropEach]⟩
  | cons first rest ih =>
    obtain ⟨hfirst, hrest⟩ := List.forall_mem_cons.mp hlisted
    obtain ⟨hexecuted, htables⟩ :=
      @ih (catalog.drop first.schemaName first.tableName) hrest
    simp only [dropEach, execute_of_droppable hfirst]
    rw [hexecuted, htables]
    apply And.intro rfl
    rw [LakeCatalog.drop, List.filter_filter]
    apply List.filter_congr
    intro table _
    rw [← Bool.decide_and, decide_eq_decide, List.forall_mem_cons, and_comm]
    rfl

/-- When each statement sent is a drop of its own leftover, then all tables could be
dropped, or one of them is refused and stays. -/
theorem droppable_or_stays (hdistinct : (listed.map LakeTable.key).Nodup)
    (hstatements : ∀ entry ∈ (dropEach database listed catalog).executed,
      entry.1.IsLeftover ∧ readDrop entry.2 = some (entry.1.schemaName, entry.1.tableName)) :
    (∀ table ∈ listed, Droppable database table) ∨
      ∃ table ∈ listed, table.IsLeftover ∧ (table ∈ catalog.tables →
        table ∈ (dropEach database listed catalog).catalog.tables) := by
  induction listed generalizing catalog with
  | nil => exact .inl fun _ htable => absurd htable List.not_mem_nil
  | cons first rest ih =>
    obtain ⟨hnew, hdistinct⟩ := List.nodup_cons.mp hdistinct
    have hfirst : first.IsLeftover ∧ first.IsPlain := by
      have hentry : (first, first.dropStatement) ∈
          (dropEach database (first :: rest) catalog).executed := by
        unfold dropEach
        split <;> exact List.mem_cons_self
      exact (hstatements _ hentry).imp_right readDrop_eq_iff.mp
    cases hrefuses : database.refuses first.schemaName first.tableName with
    | some message =>
      refine .inr ⟨first, List.mem_cons_self, hfirst.1, ?_⟩
      unfold dropEach Database.execute
      simp [readDrop_eq_iff.mpr hfirst.2, hrefuses]
    | none =>
      have hdroppable : Droppable database first := ⟨hfirst.1, hfirst.2, hrefuses⟩
      simp only [dropEach, execute_of_droppable hdroppable] at hstatements ⊢
      rcases ih hdistinct (List.forall_mem_cons.mp hstatements).2 with hall | hstays
      · exact .inl (List.forall_mem_cons.mpr ⟨hdroppable, hall⟩)
      · obtain ⟨table, htable, hleftover, hkept⟩ := hstays
        refine .inr ⟨table, List.mem_cons_of_mem _ htable, hleftover, fun hold => hkept ?_⟩
        have hother : table.key ≠ first.key := fun hsame =>
          hnew (hsame ▸ List.mem_map_of_mem htable)
        exact List.mem_filter.mpr ⟨hold, decide_eq_true hother⟩

theorem mem_backups : table ∈ backups catalog ↔ table ∈ catalog.tables ∧ table.isListed :=
  List.mem_filter

theorem distinct_backups : ((backups catalog).map LakeTable.key).Nodup :=
  catalog.distinct.sublist (List.filter_sublist.map _)

/-! ## The main result -/

/-- Exactly dbt's leftovers are dropped, each by one statement for it, if and only if every
table that the pattern lets through is a leftover, has no double quote in its names and is
not refused. -/
theorem dropsExactly_iff (database : Database) (catalog : LakeCatalog) :
    DropsExactly database catalog ↔
      ∀ table ∈ catalog.tables, table.isListed → Droppable database table := by
  apply Iff.intro
  · intro hexact table htable hlisted
    rcases droppable_or_stays distinct_backups hexact.statements with hall | hstays
    · exact hall table (mem_backups.mpr ⟨htable, hlisted⟩)
    · obtain ⟨kept, hkept, hleftover, hin⟩ := hstays
      have hmem := hin (mem_backups.mp hkept).1
      rw [← dropBackups, hexact.tables, List.mem_filter, decide_eq_true_eq] at hmem
      exact absurd hleftover hmem.2
  · intro hall
    have hdroppable : ∀ table ∈ backups catalog, Droppable database table := by
      intro table htable
      obtain ⟨hmem, hlisted⟩ := mem_backups.mp htable
      exact hall table hmem hlisted
    obtain ⟨hexecuted, htables⟩ := @dropEach_of_droppable database catalog _ hdroppable
    apply DropsExactly.mk
    · intro entry hentry
      rw [dropBackups, hexecuted] at hentry
      obtain ⟨table, htable, rfl⟩ := List.mem_map.mp hentry
      exact ⟨(hdroppable table htable).1, readDrop_eq_iff.mpr (hdroppable table htable).2.1⟩
    · rw [dropBackups, htables]
      apply List.filter_congr
      intro table htable
      rw [decide_eq_decide]
      apply Iff.intro
      · intro hkept hleftover
        exact hkept table (mem_backups.mpr ⟨htable, isListed_of_isLeftover hleftover⟩) rfl
      · intro hnone gone hgone hkey
        have hsame := List.inj_on_of_nodup_map catalog.distinct htable (mem_backups.mp hgone).1 hkey
        exact hnone (hsame ▸ (hdroppable gone hgone).1)

/-- A lake with the one table `main.orders_dbt_backup`, which somebody has made. -/
def ordersBackup : LakeCatalog where
  tables := [⟨"main".toList, "orders_dbt_backup".toList, by decide, by decide⟩]
  distinct := List.nodup_singleton _

/-- A table whose name only resembles the ending is dropped. -/
theorem not_dropsExactly_of_lookalike :
    ¬ ∀ (database : Database) (catalog : LakeCatalog), DropsExactly database catalog := by
  intro hclaim
  have hexact := hclaim ⟨fun _ _ => none, fun _ _ => .error "Parser Error"⟩ ordersBackup
  have htables : (dropBackups ⟨fun _ _ => none, fun _ _ => .error "Parser Error"⟩
      ordersBackup).catalog.tables = [] := by decide +kernel
  rw [hexact.tables] at htables
  revert htables
  decide +kernel

end DbtCraft.Ingest.Lakehouse

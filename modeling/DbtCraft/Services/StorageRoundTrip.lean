/-
# What a fetch brings back

A sync and a fetch do not meet: the one stores the files of a workspace under their own
names, the other looks for archives. A fetch brings back what was synced when the archive
with the greatest name happens to hold just that, and otherwise when nothing was synced and
no name looks like the one of a snapshot.
-/

import DbtCraft.Services.Storage

namespace DbtCraft.Services.Storage

open DbtCraft.Python DbtCraft.Math

/-- The same files with the same contents. -/
def Same (first second : Dict Location ByteArray) : Prop :=
  ∀ location, first.get location = second.get location

/-- After a sync has succeeded a fetch restores what was synced; a fetch that succeeds restores
a state that was synced or snapshotted. -/
def RoundTrips (archive : Archive) (state : State) : Op → Prop
  | .sync faults workspace =>
    let synced := syncFilesToStorage faults state.storage workspace
    let fetched := syncFromStorage archive synced.2
    synced.1 = true → fetched.1 = true ∧ Same fetched.2 workspace.kept
  | .fetch =>
    let fetched := syncFromStorage archive state.storage
    fetched.1 = true → ∃ tree ∈ state.history, Same fetched.2 tree
  | _ => True

/-! ## The condition -/

/-- Where a file of a workspace comes to lie. -/
def placed (storage : ProjectDir) (location : Location) : Option Location :=
  if storage.blocked location then none else storage.target location

/-- Every file can be copied, and has a place. -/
def Copyable (faults : Location → Option WriteFault) (storage : ProjectDir)
    (files : Dict Location ByteArray) : Prop :=
  ∀ item ∈ files, faults item.1 = none ∧ (placed storage item.1).isSome = true

/-- Files are stored one after the other, each in its place. -/
def storeAll (place : Location → Option Location) :
    Dict Location ByteArray → Dict Location ByteArray → Dict Location ByteArray
  | stored, [] => stored
  | stored, (location, content) :: rest =>
    match place location with
    | some target => storeAll place (stored.set target content) rest
    | none => storeAll place stored rest

/-- The files of the storage, with those of a workspace in their places. -/
def merged (storage : ProjectDir) (files : Dict Location ByteArray) : Dict Location ByteArray :=
  storeAll (placed storage) storage.files files

/-- Every file of a workspace that can be stored is held by the archive with the greatest name
as well, and nothing else is; a fetch finds such an archive, or nothing was ever there. -/
def Restorable (archive : Archive) (state : State) : Op → Prop
  | .sync faults workspace =>
    let files := listed faults.unlisted workspace.kept
    Copyable faults.copy state.storage files →
      match latest (merged state.storage files) with
      | none => workspace.kept = []
      | some item => (archive.read item.2).1 = true ∧ Same (archive.read item.2).2 workspace.kept
  | .fetch =>
    match latest state.storage.files with
    | none => [] ∈ state.history
    | some item =>
      (archive.read item.2).1 = true → ∃ tree ∈ state.history, Same (archive.read item.2).2 tree
  | _ => True

variable {archive : Archive} {storage : ProjectDir} {faults : Location → Option WriteFault}
  {files tree : Dict Location ByteArray} {location other : Location} {content : ByteArray}
  {item : Location × ByteArray} {state : State} {ops : List Op}

/-! ## Snapshots -/

theorem same_nil_left : Same [] tree ↔ tree = [] := by
  apply Iff.intro
  · intro hsame
    cases tree with
    | nil => rfl
    | cons first rest =>
      have hfirst : Dict.get (first :: rest) first.1 = some first.2 := if_pos rfl
      rw [← hsame first.1] at hfirst
      cases hfirst
  · intro htree
    rw [htree]
    exact fun _ => rfl

/-! ## Copies -/

theorem mem_ancestors (hother : other ∈ ancestors location) :
    other <+: location ∧ other.length < location.length := by
  obtain ⟨depth, hdepth, htake⟩ := List.mem_map.mp hother
  have hlength : depth < location.length := List.mem_range.mp hdepth
  rw [← htake]
  exact ⟨List.take_prefix _ _, by simpa using hlength⟩

/-- The parents that are made for one file are no places for another one. -/
theorem target_makeParents {made : ProjectDir} (hmade : storage.makeParents location = some made)
    (hother : ∀ parent ∈ ancestors location, ¬ other <+: parent) :
    made.target other = storage.target other := by
  unfold ProjectDir.makeParents at hmade
  split at hmade
  · cases hmade
  · cases hmade
    have hdirectory {below : Location} (hbelow : other <+: below) :
        ProjectDir.isDirectory
            { storage with directories := ancestors location ++ storage.directories } below =
          storage.isDirectory below := by
      have hnone : below ∉ ancestors location := fun hmem => hother below hmem hbelow
      simp [ProjectDir.isDirectory, hnone]
    unfold ProjectDir.target
    dsimp only
    rw [hdirectory (List.prefix_refl other), hdirectory (List.prefix_append ..)]

theorem placed_eq_bind :
    placed storage location = (storage.makeParents location).bind fun made => made.target location := by
  have hself (parent : Location) (hparent : parent ∈ ancestors location) : ¬ location <+: parent := by
    intro hlocation
    have hlong := hlocation.length_le
    have hshort := (mem_ancestors hparent).2
    omega
  cases hmade : storage.makeParents location with
  | none =>
    have hblocked : storage.blocked location = true := by
      by_contra hfree
      rw [ProjectDir.makeParents, if_neg hfree] at hmade
      cases hmade
    rw [placed, if_pos hblocked]
    rfl
  | some made =>
    have hfree : ¬ storage.blocked location = true := by
      intro hblocked
      rw [ProjectDir.makeParents, if_pos hblocked] at hmade
      cases hmade
    rw [placed, if_neg hfree, Option.bind_some, target_makeParents hmade hself]

/-- A copy succeeds when nothing fails and the file has a place. -/
theorem copyFile_fst {fault : Option WriteFault} :
    (copyFile fault storage location content).1 = true ↔
      fault = none ∧ (placed storage location).isSome = true := by
  rw [placed_eq_bind]
  cases hmade : storage.makeParents location with
  | none => simp [copyFile, hmade]
  | some made =>
    cases fault with
    | none => cases htarget : made.target location <;> simp [copyFile, hmade, htarget]
    | some fault =>
      cases fault with
      | parents => simp [copyFile, hmade]
      | unopened => simp [copyFile, hmade]
      | torn bytes => cases htarget : made.target location <;> simp [copyFile, hmade, htarget]

theorem copyFile_snd {target : Location} (hplaced : placed storage location = some target)
    (content : ByteArray) :
    ∃ made, storage.makeParents location = some made ∧
      (copyFile none storage location content).2 = made.write target content := by
  rw [placed_eq_bind] at hplaced
  obtain ⟨made, hmade, htarget⟩ := Option.bind_eq_some_iff.mp hplaced
  refine ⟨made, hmade, ?_⟩
  simp only [copyFile, hmade, htarget]

theorem files_makeParents {made : ProjectDir} (hmade : storage.makeParents location = some made) :
    made.files = storage.files := by
  unfold ProjectDir.makeParents at hmade
  split at hmade
  · cases hmade
  · cases hmade
    rfl

/-- A file lands at its location or in a directory there. -/
theorem prefix_of_placed {target : Location} (hplaced : placed storage location = some target) :
    location <+: target := by
  unfold placed ProjectDir.target at hplaced
  dsimp only at hplaced
  split_ifs at hplaced
  · exact Option.some_inj.mp hplaced ▸ List.prefix_refl _
  · exact Option.some_inj.mp hplaced ▸ List.prefix_append ..

/-- A copy takes no place from a file that lies elsewhere. -/
theorem placed_copyFile {target : Location} (hplaced : placed storage location = some target)
    (habove : ¬ other <+: location) (hbelow : ¬ location <+: other) :
    placed (copyFile none storage location content).2 other = placed storage other := by
  obtain ⟨made, hmade, hcopied⟩ := copyFile_snd hplaced content
  have hnot : ¬ target <+: other := fun htarget => hbelow ((prefix_of_placed hplaced).trans htarget)
  have hblocked : (made.write target content).blocked other = storage.blocked other := by
    unfold ProjectDir.blocked ProjectDir.write
    dsimp only
    rw [Dict.any_set fun key => key.isPrefixOf other && decide (key ≠ other), files_makeParents hmade]
    have hpre : target.isPrefixOf other = false := by
      rw [← Bool.not_eq_true, List.isPrefixOf_iff_prefix]
      exact hnot
    rw [hpre, Bool.false_and, Bool.false_or]
  have htarget : (made.write target content).target other = storage.target other := by
    calc (made.write target content).target other
      _ = made.target other := rfl
      _ = storage.target other := target_makeParents hmade fun parent hparent hother =>
        habove (hother.trans (mem_ancestors hparent).1)
  rw [hcopied, placed, hblocked, htarget, placed]

/-- No file of a tree is on the way to another one. -/
def Apart (files : Dict Location ByteArray) : Prop :=
  files.Pairwise fun first second => ¬ first.1 <+: second.1 ∧ ¬ second.1 <+: first.1

theorem copyable_cons {rest : Dict Location ByteArray} (happart : Apart (item :: rest))
    (hcopied : (copyFile (faults item.1) storage item.1 item.2).1 = true) :
    Copyable faults storage (item :: rest) ↔
      Copyable faults (copyFile (faults item.1) storage item.1 item.2).2 rest := by
  obtain ⟨hfault, hplaced⟩ := copyFile_fst.mp hcopied
  obtain ⟨target, htarget⟩ := Option.isSome_iff_exists.mp hplaced
  obtain ⟨hfirst, -⟩ := List.pairwise_cons.mp happart
  have hsame (other : Location × ByteArray) (hother : other ∈ rest) :
      placed (copyFile (faults item.1) storage item.1 item.2).2 other.1 = placed storage other.1 := by
    rw [hfault]
    exact placed_copyFile htarget (hfirst other hother).2 (hfirst other hother).1
  apply Iff.intro
  · intro hcopyable other hother
    rw [hsame other hother]
    exact hcopyable other (List.mem_cons_of_mem _ hother)
  · intro hcopyable other hother
    rcases List.mem_cons.mp hother with hitem | hrest
    · rw [hitem]
      exact ⟨hfault, hplaced⟩
    · rw [← hsame other hrest]
      exact hcopyable other hrest

theorem storeAll_congr {place place' : Location → Option Location}
    {stored : Dict Location ByteArray} (hplace : ∀ item ∈ files, place item.1 = place' item.1) :
    storeAll place stored files = storeAll place' stored files := by
  induction files generalizing stored with
  | nil => rfl
  | cons first rest ih =>
    have hrest : ∀ item ∈ rest, place item.1 = place' item.1 := fun item hitem =>
      hplace item (List.mem_cons_of_mem _ hitem)
    unfold storeAll
    rw [hplace first List.mem_cons_self]
    split
    · exact ih hrest
    · exact ih hrest

theorem merged_cons {rest : Dict Location ByteArray} (happart : Apart (item :: rest))
    (hcopied : (copyFile (faults item.1) storage item.1 item.2).1 = true) :
    merged storage (item :: rest) =
      merged (copyFile (faults item.1) storage item.1 item.2).2 rest := by
  obtain ⟨hfault, hplaced⟩ := copyFile_fst.mp hcopied
  obtain ⟨target, htarget⟩ := Option.isSome_iff_exists.mp hplaced
  obtain ⟨hfirst, -⟩ := List.pairwise_cons.mp happart
  obtain ⟨made, hmade, hstored⟩ := copyFile_snd htarget item.2
  have hfiles : (copyFile none storage item.1 item.2).2.files = storage.files.set target item.2 := by
    rw [hstored, ProjectDir.write, files_makeParents hmade]
  rw [hfault, merged, merged, storeAll, htarget, hfiles]
  apply storeAll_congr
  intro other hother
  exact (placed_copyFile htarget (hfirst other hother).2 (hfirst other hother).1).symm

/-- The whole loop succeeds when every file can be copied in the storage it starts from. -/
theorem copyFiles_fst (happart : Apart files) :
    (copyFiles faults storage files).1 = true ↔ Copyable faults storage files := by
  induction files generalizing storage with
  | nil => exact iff_of_true rfl fun _ hitem => absurd hitem List.not_mem_nil
  | cons item rest ih =>
    obtain ⟨location, content⟩ := item
    have hrest : Apart rest := (List.pairwise_cons.mp happart).2
    have hhead : (copyFile (faults location) storage location content).1 = true ↔
        faults location = none ∧ (placed storage location).isSome = true := copyFile_fst
    unfold copyFiles
    split
    next stopped hstopped =>
      apply iff_of_false Bool.false_ne_true
      intro hcopyable
      have hfirst := hhead.mpr (hcopyable (location, content) List.mem_cons_self)
      rw [hstopped] at hfirst
      cases hfirst
    next copied hcopied =>
      have hfirst : (copyFile (faults location) storage location content).1 = true := by
        rw [hcopied]
      rw [copyable_cons happart hfirst, hcopied]
      exact ih hrest

theorem copyFiles_snd (happart : Apart files) (hcopied : (copyFiles faults storage files).1 = true) :
    (copyFiles faults storage files).2.files = merged storage files := by
  induction files generalizing storage with
  | nil => rfl
  | cons item rest ih =>
    obtain ⟨location, content⟩ := item
    have hrest : Apart rest := (List.pairwise_cons.mp happart).2
    unfold copyFiles at hcopied ⊢
    split at hcopied
    · cases hcopied
    next copied hstep =>
      have hfirst : (copyFile (faults location) storage location content).1 = true := by
        rw [hstep]
      rw [merged_cons happart hfirst, hstep]
      exact ih hrest hcopied

theorem apart_filter (keep : Location × ByteArray → Bool) (happart : Apart files) :
    Apart (files.filter keep) :=
  happart.sublist List.filter_sublist

/-! ## Runs -/

theorem syncFromStorage_sync_iff (sync : SyncFaults) (workspace : Workspace) :
    RoundTrips archive state (.sync sync workspace) ↔
      Restorable archive state (.sync sync workspace) := by
  have happart : Apart (listed sync.unlisted workspace.kept) :=
    apart_filter _ (apart_filter _ workspace.apart)
  unfold RoundTrips Restorable
  dsimp only
  unfold syncFilesToStorage
  rw [← copyFiles_fst happart]
  apply forall_congr'
  intro hsynced
  rw [syncFromStorage, copyFiles_snd happart hsynced]
  cases latest (merged state.storage (listed sync.unlisted workspace.kept)) with
  | none => exact (and_iff_right rfl).trans same_nil_left
  | some item => exact Iff.rfl

theorem syncFromStorage_fetch_iff :
    RoundTrips archive state .fetch ↔ Restorable archive state .fetch := by
  unfold RoundTrips Restorable
  dsimp only
  unfold syncFromStorage
  cases latest state.storage.files with
  | some item => exact Iff.rfl
  | none =>
    apply Iff.intro
    · intro hfound
      obtain ⟨tree, htree, hsame⟩ := hfound rfl
      exact same_nil_left.mp hsame ▸ htree
    · intro hempty _
      exact ⟨[], hempty, fun _ => rfl⟩

theorem roundTrips_eq_restorable : RoundTrips archive = Restorable archive := by
  funext state op
  apply propext
  cases op with
  | sync faults workspace => exact syncFromStorage_sync_iff faults workspace
  | fetch => exact syncFromStorage_fetch_iff
  | snapshot => exact Iff.rfl
  | markDeleted => exact Iff.rfl
  | restoreProject => exact Iff.rfl
  | removeProject => exact Iff.rfl
  | upload => exact Iff.rfl
  | remove => exact Iff.rfl

end DbtCraft.Services.Storage

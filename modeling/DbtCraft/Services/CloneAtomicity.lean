/-
# Whether a clone is atomic

What is in the directory of a project after `clone`. The backup that is made of the project
is never put back, so that a clone that raises after it leaves what git has left. Where the
project cannot be moved aside it is removed, and a removal that raises may leave a part.
-/

import DbtCraft.Services.GitClone

namespace DbtCraft.Services.GitClone

open DbtCraft.Python

variable {site : Site} {course : Course} {disk after : Disk} {backup : Option Location}
  {error : CloneError}

/-- **Atomicity.** A clone that raises leaves the project as it was, one that returns leaves
the repository that git has cloned, with its remotes. -/
def Atomic (site : Site) (course : Course) (before : Disk) (ended : Ended Cloned) : Prop :=
  match ended.2 with
  | .error _ => ended.1.treeAt site.projectPath = before.treeAt site.projectPath
  | .ok _ => ∃ tree, course.git = .succeeded tree ∧
      ended.1.treeAt site.projectPath = course.upstream.configured tree

/-! ## The condition -/

/-- The project can neither be moved aside nor removed, and all of it is still there. -/
def NothingRemoved (site : Site) (course : Course) (disk : Disk) : Prop :=
  ∃ kept copied stopped, moveEnd site course disk = .failed kept copied ∧
    course.remove = some stopped ∧
    ((disk.treeAt site.projectPath).filter kept).filter stopped.kept =
      disk.treeAt site.projectPath

/-- The project is moved aside or removed. -/
def MadeWay (site : Site) (course : Course) (disk : Disk) : Prop :=
  ∀ kept copied, moveEnd site course disk = .failed kept copied → course.remove = none

/-- What is in the project after the steps that follow the backup. -/
def leftByGit (course : Course) : Tree :=
  match course.resolveCredentials, course.git, course.saveGitCredentials with
  | some _, _, _ => Tree.empty
  | none, .succeeded tree, none => course.upstream.configured tree
  | none, other, _ => other.tree

/-- No step after the backup raises, git succeeds, and the clone has a dbt project. -/
structure Completes (site : Site) (course : Course) (after : Disk) (backup : Option Location) :
    Prop where
  resolveCredentials : course.resolveCredentials = none
  git : ∃ tree, course.git = .succeeded tree
  saveGitCredentials : course.saveGitCredentials = none
  upstream : ∀ error, course.upstream ≠ .raised error
  look : course.look = none
  found : (findDbtProject site
    (addUpstream site course (after.place site.projectPath course.git.tree))).isSome = true
  storage : course.storage = none
  checkBackup : backup ≠ none → course.checkBackup = none

/-- A clone of a project that exists is atomic: either nothing is removed at all, or the
project has made way and the clone completes or happens to leave what was there. -/
def KeepsProject (site : Site) (course : Course) (disk : Disk) : Prop :=
  NothingRemoved site course disk ∨
    MadeWay site course disk ∧
      ((∃ after backup, backUp site course disk = (after, .ok backup) ∧
        Completes site course after backup) ∨
        leftByGit course = disk.treeAt site.projectPath)

/-! ## The backup -/

/-- A backup has another name than the project. -/
theorem wayTo_backup (way : Location) :
    wayTo site.projectPath (site.backupPath ++ way) = none := by
  unfold wayTo Site.projectPath Site.backupPath
  rw [if_neg]
  intro hprefix
  rw [List.isPrefixOf_iff_prefix, List.append_assoc, List.prefix_append_right_inj] at hprefix
  obtain ⟨rest, hrest⟩ := hprefix
  have hname := (List.cons.inj hrest).1
  have hlength := congrArg (fun name : String => name.toList.length) hname
  rw [String.toList_append, String.toList_append, List.length_append, List.length_append] at hlength
  have hinfix : "_backup_".toList.length = 8 := rfl
  omega

theorem wayTo_moveTarget (way : Location) :
    wayTo site.projectPath (moveTarget site disk ++ way) = none := by
  unfold moveTarget
  split
  · rw [List.append_assoc]
    exact wayTo_backup _
  · exact wayTo_backup _

/-- A project that has been moved or removed is gone. -/
theorem treeAt_backUp_ok (hbackUp : backUp site course disk = (after, .ok backup)) :
    after.treeAt site.projectPath = Tree.empty ∧ MadeWay site course disk := by
  unfold backUp at hbackUp
  split at hbackUp
  next hmove =>
    cases hbackUp
    refine ⟨?_, fun kept copied hfailed => ?_⟩
    · rw [Disk.treeAt_place_apart wayTo_moveTarget, Disk.treeAt_prune_all]
    · cases hmove.symm.trans hfailed
  next kept copied hmove =>
    cases hremove : course.remove with
    | none =>
      rw [hremove] at hbackUp
      cases hbackUp
      exact ⟨Disk.treeAt_prune_all, fun _ _ _ => hremove⟩
    | some stopped =>
      rw [hremove] at hbackUp
      cases hbackUp

/-- A removal that raises leaves what neither it nor the move has removed. -/
theorem treeAt_backUp_error (hbackUp : backUp site course disk = (after, .error error)) :
    ∃ kept copied stopped, moveEnd site course disk = .failed kept copied ∧
      course.remove = some stopped ∧
      after.treeAt site.projectPath =
        ((disk.treeAt site.projectPath).filter kept).filter stopped.kept := by
  unfold backUp at hbackUp
  split at hbackUp
  · cases hbackUp
  next kept copied hmove =>
    cases hremove : course.remove with
    | none =>
      rw [hremove] at hbackUp
      cases hbackUp
    | some stopped =>
      rw [hremove] at hbackUp
      cases hbackUp
      refine ⟨kept, copied, stopped, hmove, rfl, ?_⟩
      rw [Disk.treeAt_prune, Disk.treeAt_place_apart wayTo_moveTarget, Disk.treeAt_prune]

/-! ## The clone -/

theorem treeAt_addUpstream :
    (addUpstream site course disk).treeAt site.projectPath =
      course.upstream.configured (disk.treeAt site.projectPath) := by
  unfold addUpstream
  cases course.upstream with
  | added config => exact Disk.treeAt_setFile
  | unchanged => rfl
  | raised error => rfl

/-- The last part returns where nothing raises and the clone has a dbt project. -/
theorem finish_eq_ok_iff :
    (∃ cloned, finish site course backup disk = .ok cloned) ↔
      course.look = none ∧ (findDbtProject site disk).isSome = true ∧ course.storage = none ∧
        (backup ≠ none → course.checkBackup = none) := by
  unfold finish
  cases course.look with
  | some error => simp
  | none =>
    cases findDbtProject site disk with
    | none => simp
    | some path =>
      cases course.storage with
      | some error => simp
      | none => cases backup <;> cases course.checkBackup <;> simp

/-- What is in the project after the part that follows the backup, and when it returns. -/
theorem cloneInto_spec (site : Site) (course : Course) (backup : Option Location)
    (hempty : after.treeAt site.projectPath = Tree.empty) :
    (cloneInto site course backup after).1.treeAt site.projectPath = leftByGit course ∧
      ((∃ cloned, (cloneInto site course backup after).2 = .ok cloned) ↔
        Completes site course after backup) := by
  have hplaced : (after.place site.projectPath course.git.tree).treeAt site.projectPath =
      course.git.tree := Disk.treeAt_place hempty
  unfold cloneInto leftByGit
  cases hcredentials : course.resolveCredentials with
  | some error =>
    refine ⟨hempty, fun ⟨cloned, hcloned⟩ => (nomatch hcloned), fun hcompletes => ?_⟩
    cases hcredentials.symm.trans hcompletes.resolveCredentials
  | none =>
    cases hgit : course.git with
    | raised error tree =>
      rw [hgit] at hplaced
      refine ⟨hplaced, fun ⟨cloned, hcloned⟩ => (nomatch hcloned), fun hcompletes => ?_⟩
      obtain ⟨other, hother⟩ := hcompletes.git
      cases hgit.symm.trans hother
    | failed stderr tree =>
      rw [hgit] at hplaced
      refine ⟨hplaced, fun ⟨cloned, hcloned⟩ => (nomatch hcloned), fun hcompletes => ?_⟩
      obtain ⟨other, hother⟩ := hcompletes.git
      cases hgit.symm.trans hother
    | succeeded tree =>
      rw [hgit] at hplaced
      dsimp only
      unfold afterGit
      cases hsave : course.saveGitCredentials with
      | some error =>
        refine ⟨hplaced, fun ⟨cloned, hcloned⟩ => (nomatch hcloned), fun hcompletes => ?_⟩
        cases hsave.symm.trans hcompletes.saveGitCredentials
      | none =>
        cases hupstream : course.upstream with
        | raised error =>
          refine ⟨hplaced, fun ⟨cloned, hcloned⟩ => (nomatch hcloned), fun hcompletes => ?_⟩
          exact absurd hupstream (hcompletes.upstream error)
        | _ =>
          dsimp only
          rw [finish_eq_ok_iff]
          refine ⟨?_, fun ⟨hlook, hfound, hstorage, hcheck⟩ => ?_, fun hcompletes => ?_⟩
          · rw [treeAt_addUpstream, hplaced, hupstream]
            rfl
          · rw [← hgit] at hfound
            exact ⟨hcredentials, ⟨tree, hgit⟩, hsave,
              fun error hraised => (nomatch hupstream.symm.trans hraised),
              hlook, hfound, hstorage, hcheck⟩
          · have hfound := hcompletes.found
            rw [hgit] at hfound
            exact ⟨hcompletes.look, hfound, hcompletes.storage, hcompletes.checkBackup⟩

/-! ## The whole call -/

theorem clone_of_backUp_error (hexists : (disk.stat ⟨true, site.projectPath⟩).isSome = true)
    (hbackUp : backUp site course disk = (after, .error error)) :
    clone site course disk = (after, .error error) := by
  unfold clone backUpExisting
  rw [if_pos hexists, hbackUp]

theorem clone_of_backUp_ok (hexists : (disk.stat ⟨true, site.projectPath⟩).isSome = true)
    (hbackUp : backUp site course disk = (after, .ok backup)) :
    clone site course disk = cloneInto site course backup after := by
  unfold clone backUpExisting
  rw [if_pos hexists, hbackUp]

/-- A clone that returns has the tree of git, with its remotes. -/
theorem leftByGit_of_completes (hcompletes : Completes site course after backup) :
    ∃ tree, course.git = .succeeded tree ∧ leftByGit course = course.upstream.configured tree := by
  obtain ⟨tree, htree⟩ := hcompletes.git
  refine ⟨tree, htree, ?_⟩
  unfold leftByGit
  rw [hcompletes.resolveCredentials, htree, hcompletes.saveGitCredentials]

/-- **When a clone is atomic.** For a project that exists, however the steps of the call end. -/
theorem atomic_iff (hexists : (disk.stat ⟨true, site.projectPath⟩).isSome = true) :
    Atomic site course disk (clone site course disk) ↔ KeepsProject site course disk := by
  rcases hbackUp : backUp site course disk with ⟨after, error | backup⟩
  · obtain ⟨kept, copied, stopped, hmove, hremove, htree⟩ := treeAt_backUp_error hbackUp
    rw [clone_of_backUp_error hexists hbackUp]
    unfold Atomic
    dsimp only
    rw [htree]
    apply Iff.intro
    · exact fun hsame => .inl ⟨kept, copied, stopped, hmove, hremove, hsame⟩
    · rintro (⟨own, ownCopied, ownStopped, hown, hownStopped, hsame⟩ | ⟨hway, -⟩)
      · cases hmove.symm.trans hown
        cases hremove.symm.trans hownStopped
        exact hsame
      · cases hremove.symm.trans (hway kept copied hmove)
  · obtain ⟨hempty, hway⟩ := treeAt_backUp_ok hbackUp
    obtain ⟨hleft, hreturns⟩ := cloneInto_spec site course backup hempty
    rw [clone_of_backUp_ok hexists hbackUp]
    unfold Atomic
    rw [hleft]
    apply Iff.intro
    · intro hatomic
      refine .inr ⟨hway, ?_⟩
      cases hended : (cloneInto site course backup after).2 with
      | error error =>
        rw [hended] at hatomic
        exact .inr hatomic
      | ok cloned => exact .inl ⟨after, backup, hbackUp, hreturns.mp ⟨cloned, hended⟩⟩
    · rintro (⟨kept, copied, stopped, hmove, hremove, -⟩ | ⟨-, hcase⟩)
      · cases hremove.symm.trans (hway kept copied hmove)
      · cases hended : (cloneInto site course backup after).2 with
        | error error =>
          rcases hcase with ⟨own, ownBackup, hown, hcompletes⟩ | hsame
          · cases hbackUp.symm.trans hown
            obtain ⟨cloned, hcloned⟩ := hreturns.mpr hcompletes
            cases hended.symm.trans hcloned
          · exact hsame
        | ok cloned => exact leftByGit_of_completes (hreturns.mp ⟨cloned, hended⟩)

/-- A workspace with one project. -/
def sampleDisk : Disk where
  cwd := []
  links := []
  nodes := [(["workspace"], .directory), (["workspace", "p1"], .directory),
    (["workspace", "p1", "dbt_project.yml"], .file ⟨#[]⟩)]
  depth := 0
  strerror := ""

/-- Where the project is. -/
def sampleSite : Site := ⟨["workspace"], "p1", "20260101_000000"⟩

/-- Git knows no such branch. -/
def failedGit : Course where
  move := .moved
  remove := none
  resolveCredentials := none
  git := .failed "fatal: Remote branch nope not found in upstream origin" Tree.empty
  deleteGitCredentials := none
  saveGitCredentials := none
  upstream := .unchanged
  look := none
  storage := none
  checkBackup := none

theorem atomic_iff_of_failedGit :
    Atomic sampleSite failedGit sampleDisk (clone sampleSite failedGit sampleDisk) ↔
      KeepsProject sampleSite failedGit sampleDisk :=
  atomic_iff (by decide)

theorem not_atomic_of_failedGit : ¬ ∀ site course disk,
    (disk.stat ⟨true, site.projectPath⟩).isSome = true →
      Atomic site course disk (clone site course disk) := by
  intro hclaim
  have hatomic := hclaim sampleSite failedGit sampleDisk (by decide)
  have hended : (clone sampleSite failedGit sampleDisk).2 =
      .error (.gitOperation "clone" "fatal: Remote branch nope not found in upstream origin") := by
    decide
  unfold Atomic at hatomic
  rw [hended] at hatomic
  exact absurd hatomic (by decide)

end DbtCraft.Services.GitClone

/-
# The scope of `git config` in the console

`exec_command` and `_has_external_config_scope` of `app/services/git_service.py`. The check looks
for five spellings behind `config` in the first place, while git knows other spellings of the
options, and options and aliases of its own before the command.
-/

import DbtCraft.Exceptions
import DbtCraft.Git.Options
import DbtCraft.Python.Shlex

namespace DbtCraft.Services.GitConfigScope

open DbtCraft.Git DbtCraft.Python

/-! ## The console -/

/-- `_has_external_config_scope`. -/
def hasExternalConfigScope : List Word → Bool
  | [] => false
  | first :: rest =>
    if first ≠ "config".toList then false
    else rest.any fun part =>
      ["--global".toList, "--system".toList, "--file".toList, "-f".toList].contains part ||
        "--file=".toList.isPrefixOf part

/-- What becomes of a command. -/
inductive Outcome
  | /-- "Git config outside the project scope is not allowed". -/
    refused
  | /-- The words that git is run with. -/
    runs (argv : List Word)

/-- `exec_command` up to the run; an error of `shlex.split` is reported and nothing is run. -/
def execCommand (command : String) : Except Raised Outcome :=
  (shlexSplit command).map fun parts =>
    if hasExternalConfigScope (parts.map String.toList) then .refused
    else .runs (parts.map String.toList)

/-! ## Git -/

/-- A git, and the project in which it runs. -/
structure Installation where
  /-- The options of `git config`. -/
  options : List Spec
  /-- The options of git itself. -/
  kinds : Word → Option GlobalKind
  /-- The repository that is found with options of git. -/
  repository : List Global → Option ℕ
  /-- The words that an alias stands for. -/
  aliased : List Global → Word → Option (List Word)

/-- A run of `git config`: the options of git before it, and its words. -/
structure Invocation where
  globals : List Global
  words : List Word

variable (git : Installation)

/-- Words that lead to `git config`, at once or through aliases. -/
inductive Leads : List Global → List Word → Invocation → Prop
  | config {globals found : List Global} {argv words : List Word} :
      readGlobals git.kinds none argv = some (found, "config".toList :: words) →
      Leads globals argv ⟨globals ++ found, words⟩
  | expand {globals found : List Global} {argv words expansion : List Word} {command : Word}
      {invocation : Invocation} :
      readGlobals git.kinds none argv = some (found, command :: words) →
      command ≠ "config".toList → git.aliased (globals ++ found) command = some expansion →
      Leads (globals ++ found) (expansion ++ words) invocation → Leads globals argv invocation

/-- An option that leads out of the configuration of the repository. -/
def isExternal (given : Given) : Bool :=
  ["global".toList, "system".toList, "file".toList, "blob".toList].contains given.spec.name

/-- The spellings that the check knows. -/
def isKnown (given : Given) : Bool :=
  given.spelling = .long && given.spec.name ≠ "blob".toList ||
    given.spelling = .joined && given.spec.name = "file".toList ||
    given.spelling = .letter && given.spec.short = some 'f'

/-- Git reads one of the options that lead out. -/
def ReadsExternal (words : List Word) : Prop :=
  ∃ found, readOptions git.options false words = some found ∧
    ∃ given ∈ found, isExternal given = true

/-- A run of `git config` reads or changes a configuration that is not the repository's own. -/
def Invocation.Escapes (invocation : Invocation) : Prop :=
  git.repository invocation.globals ≠ git.repository [] ∨ ReadsExternal git invocation.words

/-- An argv never leads out of the configuration of the repository. -/
def StaysInside (argv : List Word) : Prop :=
  ∀ invocation, Leads git [] argv invocation → ¬ invocation.Escapes git

/-- Behind `config` no option that leads out is given in a spelling that the check does not know;
and where something else stands first, the options of git name no other repository, and no option
that leads out is given in any spelling. -/
structure Innocent (argv : List Word) : Prop where
  spelled : ∀ words found given, argv = "config".toList :: words →
    readOptions git.options false words = some found → given ∈ found →
      isExternal given = true → isKnown given = true
  elsewhere : argv.head? ≠ some "config".toList → ∀ invocation, Leads git [] argv invocation →
    git.repository invocation.globals = git.repository [] ∧ ¬ ReadsExternal git invocation.words

variable {git} {argv words : List Word} {invocation : Invocation} {given : Given}

/-- `config` in front is run as it is. -/
theorem leads_config : Leads git [] ("config".toList :: words) invocation ↔ invocation = ⟨[], words⟩ := by
  have hread : readGlobals git.kinds none ("config".toList :: words) =
      some ([], "config".toList :: words) := readGlobals_command git.kinds (by decide)
  apply Iff.intro
  · intro hleads
    cases hleads with
    | config hfound =>
      obtain ⟨hglobals, hwords⟩ := Prod.mk.inj (Option.some.inj (hread.symm.trans hfound))
      rw [← hglobals, ← (List.cons.inj hwords).2, List.nil_append]
    | expand hfound hcommand _ _ =>
      obtain ⟨_, hwords⟩ := Prod.mk.inj (Option.some.inj (hread.symm.trans hfound))
      exact absurd (List.cons.inj hwords).1.symm hcommand
  · intro hinvocation
    rw [hinvocation]
    exact Leads.config hread

/-- A spelling that the check knows is refused. -/
theorem hasExternalConfigScope_of_known {word : Word} (hexternal : isExternal given = true)
    (hknown : isKnown given = true) (hshows : Shows given word) (hmem : word ∈ words) :
    hasExternalConfigScope ("config".toList :: words) = true := by
  have hlisted : ∀ part ∈ words, (["--global".toList, "--system".toList, "--file".toList,
      "-f".toList].contains part || "--file=".toList.isPrefixOf part) = true →
      hasExternalConfigScope ("config".toList :: words) = true := by
    intro part hpart hfound
    rw [hasExternalConfigScope, if_neg (fun hne => hne rfl)]
    exact List.any_eq_true.mpr ⟨part, hpart, hfound⟩
  apply hlisted word hmem
  simp only [isKnown, Bool.or_eq_true, Bool.and_eq_true, decide_eq_true_eq] at hknown
  rw [Shows] at hshows
  rcases hknown with (⟨hspelling, hname⟩ | ⟨hspelling, hname⟩) | ⟨hspelling, hshort⟩
  · rw [hspelling] at hshows
    simp only [isExternal, List.contains_eq_mem, List.mem_cons, List.not_mem_nil, or_false,
      decide_eq_true_eq] at hexternal
    rcases hexternal with hglobal | hsystem | hfile | hblob
    · rw [hshows, hglobal]
      decide
    · rw [hshows, hsystem]
      decide
    · rw [hshows, hfile]
      decide
    · exact absurd hblob hname
  · rw [hspelling] at hshows
    obtain ⟨value, hvalue⟩ := hshows
    rw [hvalue, hname]
    exact Bool.or_eq_true_iff.mpr (.inr rfl)
  · rw [hspelling] at hshows
    obtain ⟨c, hc, hword⟩ := hshows
    rw [hword, Option.some.inj (hc.symm.trans hshort)]
    decide

theorem escapes_config : (⟨[], words⟩ : Invocation).Escapes git ↔ ReadsExternal git words := by
  rw [Invocation.Escapes]
  simp

/-- A git with some of its options, one repository and no aliases. -/
def plainGit : Installation where
  options := [⟨"global".toList, none, false⟩, ⟨"system".toList, none, false⟩,
    ⟨"local".toList, none, false⟩, ⟨"worktree".toList, none, false⟩,
    ⟨"file".toList, some 'f', true⟩, ⟨"blob".toList, none, true⟩, ⟨"get".toList, none, false⟩,
    ⟨"get-all".toList, none, false⟩, ⟨"list".toList, some 'l', false⟩,
    ⟨"unset".toList, none, false⟩, ⟨"add".toList, none, false⟩, ⟨"edit".toList, some 'e', false⟩,
    ⟨"fixed-value".toList, none, false⟩, ⟨"show-origin".toList, none, false⟩,
    ⟨"show-scope".toList, none, false⟩, ⟨"null".toList, some 'z', false⟩,
    ⟨"type".toList, some 't', true⟩]
  kinds word :=
    if word ∈ ["-c".toList, "-C".toList, "--git-dir".toList, "--work-tree".toList] then some .value
    else if word = "--exec-path".toList then some .joinedValue
    else if word ∈ ["-p".toList, "--no-pager".toList, "--bare".toList] then some .flag
    else none
  repository _ := some 0
  aliased _ _ := none

end DbtCraft.Services.GitConfigScope

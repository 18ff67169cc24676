/-
# Command lines of git

How git reads the words of a command line: the options of git itself, which stand before the
command and are written out, and those of a command, which may be shortened, joined and given a
value in several ways. The options there are are a parameter.
-/

import DbtCraft.Python.UrlParse

namespace DbtCraft.Git

open DbtCraft.Python.Url

/-- A word of a command line. -/
abbrev Word := List Char

/-! ## Options of a command -/

/-- An option of a command. -/
structure Spec where
  name : Word
  short : Option Char
  takesValue : Bool
deriving DecidableEq

/-- How an option is written. -/
inductive Spelling
  | /-- `--name`. -/
    long
  | /-- `--name=value`. -/
    joined
  | /-- A beginning of the name that no other option has. -/
    shortened
  | /-- `-n`. -/
    letter
  | /-- `-nvalue`. -/
    attached
  | /-- Behind another letter. -/
    clustered
deriving DecidableEq

/-- An option as it is given. -/
structure Given where
  spec : Spec
  spelling : Spelling
deriving DecidableEq

variable (table : List Spec)

/-- The option that a name is short for, and whether it is written out. -/
def resolve (name : Word) : Option (Spec × Bool) :=
  match table.find? fun spec => spec.name = name with
  | some spec => some (spec, true)
  | none =>
    match table.filter fun spec => name.isPrefixOf spec.name with
    | [spec] => some (spec, false)
    | _ => none

def longSpelling (exact joined : Bool) : Spelling :=
  if exact then if joined then .joined else .long else .shortened

/-- A long option: what is given, and whether its value is the next word. A name behind `no-` takes
an option back. -/
def readLong (text : Word) : Option (List Given × Bool) :=
  match partition '=' text with
  | (name, value) =>
    match resolve table name with
    | some (spec, exact) =>
      if spec.takesValue = false ∧ value.isSome = true then none
      else some ([⟨spec, longSpelling exact value.isSome⟩], spec.takesValue && value.isNone)
    | none =>
      match name with
      | 'n' :: 'o' :: '-' :: name => (resolve table name).map fun _ => ([], false)
      | _ => none

/-- A row of letters, of which the last one may take the rest of the word or the next word as its
value. -/
def readLetters : (first : Bool) → Word → Option (List Given × Bool)
  | _, [] => some ([], false)
  | first, c :: more =>
    match table.find? fun spec => spec.short = some c with
    | none => none
    | some spec =>
      if spec.takesValue then
        if more = [] then some ([⟨spec, if first then .letter else .clustered⟩], true)
        else some ([⟨spec, .attached⟩], false)
      else
        (readLetters false more).map fun found =>
          (⟨spec, if first ∧ more = [] then .letter else .clustered⟩ :: found.1, found.2)

/-- What a word gives, or that it ends the options. -/
def readWord (word : Word) : Option (Option (List Given × Bool)) :=
  match word with
  | ['-'] => some none
  | ['-', '-'] => some none
  | '-' :: '-' :: text => (readLong table text).map some
  | '-' :: letters => (readLetters table true letters).map some
  | _ => some none

/-- The options of a command: they end at the first word that is none, or at `--`. `none` is an
error, after which nothing is done. -/
def readOptions : (value : Bool) → List Word → Option (List Given)
  | true, [] => none
  | true, _ :: rest => readOptions false rest
  | false, [] => some []
  | false, word :: rest =>
    match readWord table word with
    | none => none
    | some none => some []
    | some (some (given, value)) => (readOptions value rest).map (given ++ ·)

/-- A word in which an option is given in a spelling that shows it. -/
def Shows (given : Given) (word : Word) : Prop :=
  match given.spelling with
  | .long => word = '-' :: '-' :: given.spec.name
  | .joined => ∃ value, word = '-' :: '-' :: (given.spec.name ++ '=' :: value)
  | .letter => ∃ c, given.spec.short = some c ∧ word = ['-', c]
  | .shortened | .attached | .clustered => True

variable {table} {given : Given} {found : List Given} {text name : Word} {spec : Spec}
  {value first exact : Bool}

theorem name_of_resolve (hresolve : resolve table name = some (spec, true)) : spec.name = name := by
  rw [resolve] at hresolve
  split at hresolve
  next own hown =>
    have hname := List.find?_some hown
    rw [← (Prod.mk.inj (Option.some.inj hresolve)).1]
    simpa using hname
  · split at hresolve
    · cases (Prod.mk.inj (Option.some.inj hresolve)).2
    · cases hresolve

theorem shows_of_readLong (hread : readLong table text = some (found, value))
    (hgiven : given ∈ found) : Shows given ('-' :: '-' :: text) := by
  rw [readLong] at hread
  cases hpartition : partition '=' text with
  | mk name after =>
    rw [hpartition] at hread
    simp only at hread
    split at hread
    next spec exact hresolve =>
      split at hread
      · cases hread
      · obtain ⟨hfound, _⟩ := Prod.mk.inj (Option.some.inj hread)
        rw [← hfound, List.mem_singleton] at hgiven
        rw [hgiven]
        cases exact with
        | false => trivial
        | true =>
          have hname := name_of_resolve hresolve
          cases after with
          | none => exact congrArg _ (congrArg _ (by rw [hname, eq_of_partition_none hpartition]))
          | some last => exact ⟨last, by rw [hname, eq_append_of_partition hpartition]⟩
    · split at hread
      · obtain ⟨_, _, hpair⟩ := Option.map_eq_some_iff.mp hread
        rw [← (Prod.mk.inj hpair).1] at hgiven
        cases hgiven
      · cases hread

/-- A letter that is not joined with others is all of its word. -/
theorem letter_of_readLetters (hread : readLetters table first text = some (found, value))
    (hgiven : given ∈ found) : given.spelling = .attached ∨ given.spelling = .clustered ∨
      given.spelling = .letter ∧ first = true ∧ ∃ c, given.spec.short = some c ∧ text = [c] := by
  induction text generalizing first found value with
  | nil =>
    obtain ⟨hfound, _⟩ := Prod.mk.inj (Option.some.inj hread)
    rw [← hfound] at hgiven
    cases hgiven
  | cons c more ih =>
    rw [readLetters] at hread
    split at hread
    · cases hread
    next spec hspec =>
      have hshort : spec.short = some c := by simpa using List.find?_some hspec
      split at hread
      · split at hread
        next hmore =>
          obtain ⟨hfound, _⟩ := Prod.mk.inj (Option.some.inj hread)
          rw [← hfound, List.mem_singleton] at hgiven
          rw [hgiven, hmore]
          cases first with
          | false => exact .inr (.inl rfl)
          | true => exact .inr (.inr ⟨rfl, rfl, c, hshort, rfl⟩)
        · obtain ⟨hfound, _⟩ := Prod.mk.inj (Option.some.inj hread)
          rw [← hfound, List.mem_singleton] at hgiven
          rw [hgiven]
          exact .inl rfl
      · obtain ⟨⟨later, next⟩, hlater, hpair⟩ := Option.map_eq_some_iff.mp hread
        rw [← (Prod.mk.inj hpair).1] at hgiven
        rcases List.mem_cons.mp hgiven with hsame | hother
        · rw [hsame]
          by_cases hletter : first = true ∧ more = []
          · rw [if_pos hletter, hletter.1, hletter.2]
            exact .inr (.inr ⟨rfl, rfl, c, hshort, rfl⟩)
          · rw [if_neg hletter]
            exact .inr (.inl rfl)
        · rcases ih hlater hother with hattached | hclustered | ⟨_, hfalse, _⟩
          · exact .inl hattached
          · exact .inr (.inl hclustered)
          · cases hfalse

theorem shows_of_readWord {word : Word} (hread : readWord table word = some (some (found, value)))
    (hgiven : given ∈ found) : Shows given word := by
  unfold readWord at hread
  split at hread
  · cases Option.some.inj hread
  · cases Option.some.inj hread
  · obtain ⟨pair, hpair, hsome⟩ := Option.map_eq_some_iff.mp hread
    rw [Option.some.inj hsome] at hpair
    exact shows_of_readLong hpair hgiven
  · obtain ⟨pair, hpair, hsome⟩ := Option.map_eq_some_iff.mp hread
    rw [Option.some.inj hsome] at hpair
    rcases letter_of_readLetters hpair hgiven with hattached | hclustered | ⟨hletter, _, c, hc, htext⟩
    · rw [Shows, hattached]
      trivial
    · rw [Shows, hclustered]
      trivial
    · rw [Shows, hletter]
      exact ⟨c, hc, by rw [htext]⟩
  · cases Option.some.inj hread

/-- **Every option that git reads stands in a word of the line.** -/
theorem exists_shows (words : List Word) (hread : readOptions table value words = some found)
    (hgiven : given ∈ found) : ∃ word ∈ words, Shows given word := by
  induction words generalizing value found with
  | nil =>
    cases value with
    | true => cases hread
    | false =>
      rw [← Option.some.inj hread] at hgiven
      cases hgiven
  | cons word rest ih =>
    have hlater : ∀ {value : Bool} {found : List Given}, readOptions table value rest = some found →
        given ∈ found → ∃ own ∈ word :: rest, Shows given own := by
      intro value found hrest hmem
      obtain ⟨own, hown, hshows⟩ := ih hrest hmem
      exact ⟨own, List.mem_cons_of_mem word hown, hshows⟩
    cases value with
    | true => exact hlater hread hgiven
    | false =>
      rw [readOptions] at hread
      split at hread
      · cases hread
      · rw [← Option.some.inj hread] at hgiven
        cases hgiven
      next own value hword =>
        obtain ⟨others, hothers, hfound⟩ := Option.map_eq_some_iff.mp hread
        rw [← hfound] at hgiven
        rcases List.mem_append.mp hgiven with hown | hother
        · exact ⟨word, List.mem_cons_self, shows_of_readWord hword hown⟩
        · exact hlater hothers hother

/-! ## Options of git -/

/-- What an option of git itself does with the next word. -/
inductive GlobalKind
  | flag
  | /-- Its value stands in the next word or behind `=`. -/
    value
  | /-- Its value stands behind `=` only. -/
    joinedValue
deriving DecidableEq

structure Global where
  name : Word
  value : Option Word
deriving DecidableEq

/-- The options of git before the command, and the command with its words. The option whose value
is the next word may have been read already. -/
def readGlobals (kinds : Word → Option GlobalKind) : (pending : Option Word) → List Word →
    Option (List Global × List Word)
  | _, [] => none
  | some name, value :: rest =>
    (readGlobals kinds none rest).map fun found => (⟨name, some value⟩ :: found.1, found.2)
  | none, word :: rest =>
    if word.head? = some '-' then
      match kinds word with
      | some .flag =>
        (readGlobals kinds none rest).map fun found => (⟨word, none⟩ :: found.1, found.2)
      | some .value => readGlobals kinds (some word) rest
      | _ =>
        match partition '=' word with
        | (name, some value) =>
          if kinds name = some .value ∨ kinds name = some .joinedValue then
            (readGlobals kinds none rest).map fun found => (⟨name, some value⟩ :: found.1, found.2)
          else none
        | (_, none) => none
    else some ([], word :: rest)

/-- A command in front has no options of git before it. -/
theorem readGlobals_command (kinds : Word → Option GlobalKind) {word : Word} {rest : List Word}
    (hword : word.head? ≠ some '-') :
    readGlobals kinds none (word :: rest) = some ([], word :: rest) := by
  rw [readGlobals, if_neg hword]

end DbtCraft.Git

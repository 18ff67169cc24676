/-
# Command lines

How click reads the tokens of a command line: long options with a value behind `=` or in the
next token, clusters of short options with a value attached or in the next token, options that
take every token up to the next one with a dash, `--`, and groups of commands. The options of
each command are a parameter.
-/

import DbtCraft.Math.Machine
import DbtCraft.Python.Text
import Mathlib.Data.List.TakeWhile

namespace DbtCraft.Python.CommandLine

open DbtCraft.Math

universe uκ

/-- What an option does with the tokens behind it. -/
inductive Takes
  | /-- A flag, which sets its option to a value of its own. -/
    nothing (sets : String)
  | /-- The next token, whatever it looks like. -/
    one
  | /-- The next token, and those behind it without a dash in front. -/
    many
  deriving DecidableEq

variable {κ : Type uκ}

/-- What a spelling of an option leads to. -/
structure Spelling (κ : Type uκ) where
  option : κ
  takes : Takes
  deriving DecidableEq

/-- The options of a command. -/
structure Table (κ : Type uκ) where
  long : String → Option (Spelling κ)
  short : Char → Option (Spelling κ)
  /-- The first argument names a command. -/
  isGroup : Bool := false
  /-- A dash and one character are a short option. -/
  long_pair : ∀ c, long (String.ofList ['-', c]) = none

/-- A table of spellings, none of them a dash and one character. -/
def Table.ofLists (long : List (String × Spelling κ)) (short : List (Char × Spelling κ))
    (isGroup : Bool) (hlong : ∀ entry ∈ long, entry.1.toList.length ≠ 2) : Table κ where
  long name := long.lookup name
  short c := short.lookup c
  isGroup := isGroup
  long_pair c := by
    apply List.lookup_eq_none_iff.mpr
    intro entry hentry
    apply bne_iff_ne.mpr
    intro hsame
    apply hlong entry hentry
    rw [← hsame, String.toList_ofList]
    rfl

/-- The table of each command, by the words that lead to it. -/
structure Program (κ : Type uκ) where
  table : List String → Option (Table κ)

/-! ## One token -/

/-- What a token with a dash is read as: flags, and an option that takes a value, which may be
attached. -/
structure Reading (κ : Type uκ) where
  flags : List (κ × String) := []
  last : Option (Spelling κ × Option String) := none

/-- A token up to its first `=`. -/
def optionName (token : String) : String :=
  String.ofList (token.toList.takeWhile (· ≠ '='))

/-- What stands behind the first `=` of a token. -/
def attachedValue (token : String) : Option String :=
  match token.toList.dropWhile (· ≠ '=') with
  | [] => none
  | _ :: value => some (String.ofList value)

/-- A long option, with the value that is attached to it. -/
def readLong (spelling : Spelling κ) (value : Option String) : Option (Reading κ) :=
  match spelling.takes, value with
  | .nothing sets, none => some { flags := [(spelling.option, sets)] }
  | .nothing _, some _ => none
  | .one, _ | .many, _ => some { last := some (spelling, value) }

/-- Short options one behind the other. -/
def readShort (table : Table κ) : List Char → Option (Reading κ)
  | [] => some {}
  | c :: rest =>
    match table.short c with
    | none => none
    | some spelling =>
      match spelling.takes with
      | .nothing sets =>
        (readShort table rest).map fun reading =>
          { reading with flags := (spelling.option, sets) :: reading.flags }
      | .one | .many =>
        some { last := some (spelling, if rest = [] then none else some (String.ofList rest)) }

/-- A token with a dash. -/
def readOption (table : Table κ) (token : String) : Option (Reading κ) :=
  match table.long (optionName token) with
  | some spelling => readLong spelling (attachedValue token)
  | none => if startsWith token "--" then none else readShort table (token.toList.drop 1)

/-- A token is read as options. -/
def isOption (token : String) : Bool :=
  startsWith token "-" && token ≠ "-" && token ≠ "--"

/-! ## The tokens one by one -/

inductive Mode (κ : Type uκ)
  | ready
  | /-- The next token is a value. -/
    awaiting (spelling : Spelling κ)
  | /-- Tokens without a dash are values. -/
    eating (option : κ)
  | /-- Behind `--`. -/
    plain

structure State (κ : Type uκ) where
  path : List String := []
  mode : Mode κ := .ready
  /-- The options with the values they are given, in order. -/
  bound : List (κ × String) := []
  arguments : List String := []

namespace State

/-- How the reading goes on behind the value of an option. -/
def behind (spelling : Spelling κ) : Mode κ :=
  if spelling.takes = .many then .eating spelling.option else .ready

def bind (state : State κ) (option : κ) (value : String) : State κ :=
  { state with bound := state.bound ++ [(option, value)] }

/-- The options of one token. -/
def read (state : State κ) (reading : Reading κ) : State κ :=
  let flagged := { state with bound := state.bound ++ reading.flags }
  match reading.last with
  | none => { flagged with mode := .ready }
  | some (spelling, none) => { flagged with mode := .awaiting spelling }
  | some (spelling, some value) =>
    { flagged.bind spelling.option value with mode := behind spelling }

end State

variable (program : Program κ)

/-- An argument: the name of a command in a group. -/
def argument (state : State κ) (table : Table κ) (token : String) : Option (State κ) :=
  if table.isGroup then
    (program.table (state.path ++ [token])).map fun _ =>
      { state with path := state.path ++ [token], mode := .ready }
  else some { state with arguments := state.arguments ++ [token] }

/-- A token that is not the value of an option. -/
def fresh (state : State κ) (token : String) : Option (State κ) :=
  (program.table state.path).bind fun table =>
    if token = "--" then some { state with mode := .plain }
    else if isOption token then (readOption table token).map state.read
    else argument program { state with mode := .ready } table token

/-- What a token is read as where options are read. -/
def optionsAt (state : State κ) (token : String) : Option (Reading κ) :=
  match state.mode with
  | .awaiting _ | .plain => none
  | .ready | .eating _ =>
    if isOption token then (program.table state.path).bind fun table => readOption table token
    else none

def step (state : State κ) (token : String) : Option (State κ) :=
  match state.mode with
  | .awaiting spelling =>
    some { state.bind spelling.option token with mode := State.behind spelling }
  | .plain => (program.table state.path).bind fun table => argument program state table token
  | .eating option =>
    if startsWith token "-" then fresh program state token else some (state.bind option token)
  | .ready => fresh program state token

/-- The reading of a command line. -/
def machine : Machine (State κ) String where
  init := {}
  step := step program

/-- The tokens can end here. -/
def complete (state : State κ) : Bool :=
  match state.mode, program.table state.path with
  | .awaiting _, _ | _, none => false
  | _, some table => !table.isGroup

/-- The tokens behind the name of the program, where they are accepted. -/
def parse (tokens : List String) : Option (State κ) :=
  ((machine program).runFrom {} tokens).filter (complete program)

namespace State

variable [DecidableEq κ] (state : State κ) (option : κ)

/-- The values that an option is given. -/
def values : List String := (state.bound.filter (·.1 = option)).map (·.2)

/-- The value of an option that takes one: the last one wins. -/
def value : Option String := (state.values option).getLast?

end State

/-! ## Spellings -/

section

variable {table : Table κ} {token name : String} {spelling : Spelling κ} {reading : Reading κ}

/-- A command has a spelling. -/
def Table.Spells (table : Table κ) (spelling : Spelling κ) : Prop :=
  (∃ name, table.long name = some spelling) ∨ ∃ c, table.short c = some spelling

theorem startsWith_iff {text start : String} :
    startsWith text start = true ↔ ∃ rest, text.toList = start.toList ++ rest := by
  rw [startsWith, List.isPrefixOf_iff_prefix]
  exact ⟨fun ⟨rest, hrest⟩ => ⟨rest, hrest.symm⟩, fun ⟨rest, hrest⟩ => ⟨rest, hrest.symm⟩⟩

/-- A token without `=` is the name of an option. -/
theorem option_of_name (hname : '=' ∉ name.toList) :
    optionName name = name ∧ attachedValue name = none := by
  have hall : ∀ c ∈ name.toList, decide (c ≠ '=') = true := fun c hc =>
    decide_eq_true fun hsame => hname (hsame ▸ hc)
  rw [optionName, attachedValue, List.takeWhile_eq_self_iff.mpr hall,
    List.dropWhile_eq_nil_iff.mpr hall, String.ofList_toList]
  exact ⟨rfl, rfl⟩

/-- A name, `=` and a value. -/
theorem option_of_append {value : List Char} (hname : '=' ∉ name.toList)
    (htoken : token.toList = name.toList ++ '=' :: value) :
    optionName token = name ∧ attachedValue token = some (String.ofList value) := by
  have hall : ∀ c ∈ name.toList, decide (c ≠ '=') = true := fun c hc =>
    decide_eq_true fun hsame => hname (hsame ▸ hc)
  rw [optionName, attachedValue, htoken, List.takeWhile_append_of_pos hall,
    List.dropWhile_append_of_pos hall, List.takeWhile_cons_of_neg (by decide),
    List.dropWhile_cons_of_neg (by decide), List.append_nil, String.ofList_toList]
  exact ⟨rfl, rfl⟩

theorem flags_of_readLong {flag : κ × String} {value : Option String}
    (hread : readLong spelling value = some reading) (hflag : flag ∈ reading.flags) :
    ∃ sets, spelling.takes = .nothing sets ∧ (spelling.option, sets) = flag := by
  unfold readLong at hread
  split at hread <;> cases hread
  next sets htakes => exact ⟨sets, htakes, (List.mem_singleton.mp hflag).symm⟩
  · cases hflag
  · cases hflag

theorem last_of_readLong {own : Spelling κ} {value : Option String} {given : Option String}
    (hread : readLong own value = some reading) (hlast : reading.last = some (spelling, given)) :
    own = spelling ∧ value = given ∧ ∀ sets, own.takes ≠ .nothing sets := by
  unfold readLong at hread
  split at hread <;> cases hread
  · cases hlast
  next htakes =>
    cases hlast
    exact ⟨rfl, rfl, fun sets hsets => by rw [htakes] at hsets; cases hsets⟩
  next htakes =>
    cases hlast
    exact ⟨rfl, rfl, fun sets hsets => by rw [htakes] at hsets; cases hsets⟩

theorem flags_of_readShort {flag : κ × String} {chars : List Char}
    (hread : readShort table chars = some reading) (hflag : flag ∈ reading.flags) :
    ∃ spelling, table.Spells spelling ∧ spelling.option = flag.1 ∧
      spelling.takes = .nothing flag.2 := by
  induction chars generalizing reading with
  | nil =>
    cases hread
    cases hflag
  | cons c rest ih =>
    rw [readShort] at hread
    split at hread
    · cases hread
    next spelling hshort =>
      split at hread
      next sets htakes =>
        obtain ⟨others, hothers, hsame⟩ := Option.map_eq_some_iff.mp hread
        subst hsame
        rcases List.mem_cons.mp hflag with hfirst | hrest
        · exact ⟨spelling, .inr ⟨c, hshort⟩, by rw [hfirst], by rw [hfirst, htakes]⟩
        · exact ih hothers hrest
      · cases hread
        cases hflag
      · cases hread
        cases hflag

theorem last_of_readShort {chars : List Char} {value : Option String}
    (hread : readShort table chars = some reading)
    (hlast : reading.last = some (spelling, value)) :
    table.Spells spelling ∧ ∀ sets, spelling.takes ≠ .nothing sets := by
  induction chars generalizing reading with
  | nil =>
    cases hread
    cases hlast
  | cons c rest ih =>
    rw [readShort] at hread
    split at hread
    · cases hread
    next own hshort =>
      split at hread
      · obtain ⟨others, hothers, hsame⟩ := Option.map_eq_some_iff.mp hread
        subst hsame
        exact ih hothers hlast
      next htakes =>
        cases hread
        cases hlast
        exact ⟨.inr ⟨c, hshort⟩, fun sets hsets => by rw [htakes] at hsets; cases hsets⟩
      next htakes =>
        cases hread
        cases hlast
        exact ⟨.inr ⟨c, hshort⟩, fun sets hsets => by rw [htakes] at hsets; cases hsets⟩

/-- The flags of a token are spellings of the command. -/
theorem spells_of_flags {flag : κ × String} (hread : readOption table token = some reading)
    (hflag : flag ∈ reading.flags) :
    ∃ spelling, table.Spells spelling ∧ spelling.option = flag.1 ∧
      spelling.takes = .nothing flag.2 := by
  unfold readOption at hread
  split at hread
  next spelling hlong =>
    obtain ⟨sets, htakes, hsame⟩ := flags_of_readLong hread hflag
    exact ⟨spelling, .inl ⟨_, hlong⟩, hsame ▸ rfl, hsame ▸ htakes⟩
  · split at hread
    · cases hread
    · exact flags_of_readShort hread hflag

/-- So is the option of a token that takes a value. -/
theorem spells_of_last {value : Option String} (hread : readOption table token = some reading)
    (hlast : reading.last = some (spelling, value)) :
    table.Spells spelling ∧ ∀ sets, spelling.takes ≠ .nothing sets := by
  unfold readOption at hread
  split at hread
  next own hlong =>
    obtain ⟨hsame, -, htakes⟩ := last_of_readLong hread hlast
    exact ⟨.inl ⟨_, hsame ▸ hlong⟩, hsame ▸ htakes⟩
  · split at hread
    · cases hread
    · exact last_of_readShort hread hlast

variable {value : Option String}

/-- Only a long option has two dashes. -/
theorem readOption_of_dashes (hdashes : startsWith token "--" = true)
    (hread : readOption table token = some reading) :
    ∃ spelling, table.long (optionName token) = some spelling ∧
      readLong spelling (attachedValue token) = some reading := by
  unfold readOption at hread
  split at hread
  next spelling hlong => exact ⟨spelling, hlong, hread⟩
  · rw [if_pos hdashes] at hread
    cases hread

/-- The name of a long option has no value attached. -/
theorem last_of_name (hname : '=' ∉ name.toList) (hdashes : startsWith name "--" = true)
    (hread : readOption table name = some reading) (hlast : reading.last = some (spelling, value)) :
    value = none := by
  obtain ⟨own, -, hlong⟩ := readOption_of_dashes hdashes hread
  rw [(option_of_name hname).2] at hlong
  exact (last_of_readLong hlong hlast).2.1.symm

/-- Behind a name and `=` stands its value. -/
theorem last_of_append {text : List Char} (hname : '=' ∉ name.toList)
    (hdashes : startsWith name "--" = true) (htoken : token.toList = name.toList ++ '=' :: text)
    (hread : readOption table token = some reading)
    (hlast : reading.last = some (spelling, value)) : value = some (String.ofList text) := by
  have hstart : startsWith token "--" = true := by
    obtain ⟨rest, hrest⟩ := startsWith_iff.mp hdashes
    exact startsWith_iff.mpr ⟨rest ++ '=' :: text, by rw [htoken, hrest, List.append_assoc]⟩
  obtain ⟨own, -, hlong⟩ := readOption_of_dashes hstart hread
  rw [(option_of_append hname htoken).2] at hlong
  exact (last_of_readLong hlong hlast).2.1.symm

/-- A dash and one character have no value attached. -/
theorem last_of_pair {c : Char} (hc : '-' ≠ c) (hequal : '=' ≠ c)
    (hread : readOption table (String.ofList ['-', c]) = some reading)
    (hlast : reading.last = some (spelling, value)) : value = none := by
  have hname : optionName (String.ofList ['-', c]) = String.ofList ['-', c] :=
    (option_of_name (by simpa using hequal)).1
  have hdashes : startsWith (String.ofList ['-', c]) "--" = false := by
    have htwo : "--".toList = ['-', '-'] := rfl
    rw [startsWith, htwo, String.toList_ofList, List.isPrefixOf_cons_cons, List.isPrefixOf_cons_cons,
      beq_eq_false_iff_ne.mpr hc, Bool.false_and, Bool.and_false]
  have hshort : readOption table (String.ofList ['-', c]) = readShort table [c] := by
    rw [readOption, hname, table.long_pair, hdashes, String.toList_ofList]
    rfl
  rw [hshort, readShort] at hread
  split at hread
  · cases hread
  · split at hread
    · obtain ⟨others, hothers, hsame⟩ := Option.map_eq_some_iff.mp hread
      cases hothers
      subst hsame
      cases hlast
    · cases hread
      cases hlast
      rfl
    · cases hread
      cases hlast
      rfl

end

/-! ## What one token does -/

section

variable {program} {state next : State κ} {token : String}

theorem argument_cases {table : Table κ} (hargument : argument program state table token = some next) :
    next.bound = state.bound ∧ (next.mode = .ready ∨ next.mode = state.mode) := by
  unfold argument at hargument
  split at hargument
  · obtain ⟨-, -, hsame⟩ := Option.map_eq_some_iff.mp hargument
    subst hsame
    exact ⟨rfl, .inl rfl⟩
  · cases hargument
    exact ⟨rfl, .inr rfl⟩

/-- A token where options are read. -/
theorem fresh_cases (hmode : state.mode = .ready ∨ ∃ option, state.mode = .eating option)
    (hfresh : fresh program state token = some next) :
    (∃ reading, optionsAt program state token = some reading ∧ next = state.read reading) ∨
    (optionsAt program state token = none ∧ next.bound = state.bound ∧
      (∀ spelling, state.mode ≠ .awaiting spelling) ∧
      (next.mode = .ready ∨ next.mode = .plain)) := by
  have hopen : ∀ spelling, state.mode ≠ .awaiting spelling := by
    intro spelling hawaiting
    rcases hmode with hready | ⟨option, heating⟩
    · rw [hready] at hawaiting
      cases hawaiting
    · rw [heating] at hawaiting
      cases hawaiting
  have hoptions : optionsAt program state token =
      if isOption token then (program.table state.path).bind fun table => readOption table token
      else none := by
    rcases hmode with hready | ⟨option, heating⟩
    · rw [optionsAt, hready]
    · rw [optionsAt, heating]
  obtain ⟨table, htable, hfresh⟩ := Option.bind_eq_some_iff.mp hfresh
  split at hfresh
  next hdashes =>
    cases hfresh
    have hnot : isOption token = false := by rw [hdashes]; rfl
    rw [hnot] at hoptions
    exact .inr ⟨hoptions, rfl, hopen, .inr rfl⟩
  · split at hfresh
    next hoption =>
      obtain ⟨reading, hreading, hnext⟩ := Option.map_eq_some_iff.mp hfresh
      rw [if_pos hoption, htable, Option.bind_some, hreading] at hoptions
      exact .inl ⟨reading, hoptions, hnext.symm⟩
    next hoption =>
      rw [if_neg hoption] at hoptions
      obtain ⟨hbound, hnext⟩ := argument_cases hfresh
      exact .inr ⟨hoptions, hbound, hopen, .inl (hnext.elim id id)⟩

theorem step_cases (hstep : step program state token = some next) :
    (∃ reading, optionsAt program state token = some reading ∧ next = state.read reading) ∨
    (∃ spelling, state.mode = .awaiting spelling ∧
      next = { state.bind spelling.option token with mode := State.behind spelling }) ∨
    (∃ option, state.mode = .eating option ∧ optionsAt program state token = none ∧
      next = state.bind option token) ∨
    (optionsAt program state token = none ∧ next.bound = state.bound ∧
      (∀ spelling, state.mode ≠ .awaiting spelling) ∧
      (next.mode = .ready ∨ next.mode = .plain)) := by
  unfold step at hstep
  split at hstep
  next spelling hmode =>
    cases hstep
    exact .inr (.inl ⟨spelling, hmode, rfl⟩)
  next hmode =>
    obtain ⟨table, -, hargument⟩ := Option.bind_eq_some_iff.mp hstep
    obtain ⟨hbound, hnext⟩ := argument_cases hargument
    have hnone : optionsAt program state token = none := by rw [optionsAt, hmode]
    refine .inr (.inr (.inr ⟨hnone, hbound, fun spelling hother => ?_, hnext.imp_right ?_⟩))
    · rw [hmode] at hother
      cases hother
    · exact fun hsame => hsame.trans hmode
  next option hmode =>
    split at hstep
    · exact (fresh_cases (.inr ⟨option, hmode⟩) hstep).imp_right fun hplain => .inr (.inr hplain)
    next hdash =>
      cases hstep
      have hnot : isOption token = false := by rw [isOption, Bool.eq_false_iff.mpr hdash]; rfl
      have hnone : optionsAt program state token = none := by
        rw [optionsAt, hmode]
        exact if_neg (Bool.eq_false_iff.mp hnot)
      exact .inr (.inr (.inl ⟨option, hmode, hnone, rfl⟩))
  next hmode =>
    exact (fresh_cases (.inl hmode) hstep).imp_right fun hplain => .inr (.inr hplain)

theorem behind_ne_awaiting {spelling own : Spelling κ} :
    State.behind spelling ≠ .awaiting own := by
  unfold State.behind
  split <;> rintro ⟨⟩

theorem mode_of_optionsAt {reading : Reading κ} (hread : optionsAt program state token = some reading) :
    (∀ spelling, state.mode ≠ .awaiting spelling) ∧
      ∃ table, program.table state.path = some table ∧ readOption table token = some reading := by
  have hfound : ∀ spelling, state.mode ≠ .awaiting spelling := by
    intro spelling hmode
    rw [optionsAt, hmode] at hread
    cases hread
  refine ⟨hfound, ?_⟩
  unfold optionsAt at hread
  split at hread
  · cases hread
  · cases hread
  all_goals
    split at hread
    · exact Option.bind_eq_some_iff.mp hread
    · cases hread

variable {option : κ}

/-- No more than one value is on its way to an option. -/
def Feeds (option : κ) (state : State κ) : Prop :=
  match state.mode with
  | .awaiting spelling => spelling.option = option → spelling.takes = .one
  | .eating other => other ≠ option
  | .ready | .plain => True

/-- Behind its one value an option takes no other. -/
theorem feeds_behind {spelling : Spelling κ} (htakes : spelling.option = option → spelling.takes = .one)
    (hmode : state.mode = State.behind spelling) : Feeds option state := by
  unfold Feeds
  by_cases hmany : spelling.takes = .many
  · rw [hmode, State.behind, if_pos hmany]
    intro hsame
    rw [htakes hsame] at hmany
    cases hmany
  · rw [hmode, State.behind, if_neg hmany]
    trivial

end

/-! ## The value of an option -/

/-- A token with the state in which it is come to and the tokens behind it. -/
structure Visit (κ : Type uκ) where
  state : State κ
  token : String
  rest : List String

/-- The tokens as they are come to. -/
def visits (state : State κ) : List String → List (Visit κ)
  | [] => []
  | token :: rest =>
    ⟨state, token, rest⟩ ::
      match step program state token with
      | some next => visits next rest
      | none => []

section

variable [DecidableEq κ] (option : κ)

/-- The text that an option is given by a token, or by the next one. -/
def textAt (visit : Visit κ) : Option String :=
  match (optionsAt program visit.state visit.token).bind Reading.last with
  | some (spelling, value) =>
    if spelling.option = option then value.or visit.rest.head? else none
  | none => none

/-- An option takes one value, however it is spelled. -/
def TakesOne : Prop :=
  ∀ path table spelling, program.table path = some table → table.Spells spelling →
    spelling.option = option → spelling.takes = .one

variable {program option} {state next final : State κ} {token : String} {tokens : List String}

/-- The value that is on its way to an option. -/
def pending (option : κ) (state : State κ) (tokens : List String) : Option String :=
  match state.mode with
  | .awaiting spelling =>
    if spelling.option = option then tokens.head?.or (state.value option) else state.value option
  | .ready | .eating _ | .plain => state.value option

theorem pending_of_not_awaiting (hopen : ∀ spelling, state.mode ≠ .awaiting spelling) :
    pending option state tokens = state.value option := by
  unfold pending
  split
  next spelling hmode => exact absurd hmode (hopen spelling)
  · rfl
  · rfl
  · rfl

theorem pending_of_awaiting {spelling : Spelling κ} (hmode : state.mode = .awaiting spelling) :
    pending option state tokens =
      if spelling.option = option then tokens.head?.or (state.value option)
      else state.value option := by
  rw [pending, hmode]

theorem value_congr (hbound : next.bound = state.bound) : next.value option = state.value option := by
  rw [State.value, State.value, State.values, State.values, hbound]

theorem value_bind {own : κ} {value : String} : (state.bind own value).value option =
    if own = option then some value else state.value option := by
  rw [State.value, State.value, State.values, State.values, State.bind, List.filter_append,
    List.map_append]
  split
  next hsame => simp [hsame]
  next hother => simp [hother]

/-- Flags of other options. -/
theorem value_flags {flags : List (κ × String)} (hothers : ∀ flag ∈ flags, flag.1 ≠ option) :
    State.value { state with bound := state.bound ++ flags } option = state.value option := by
  have hnone : flags.filter (·.1 = option) = [] :=
    List.filter_eq_nil_iff.mpr fun flag hflag => by simp [hothers flag hflag]
  rw [State.value, State.value, State.values, State.values, List.filter_append, hnone,
    List.append_nil]

/-- The text that an option of a token is given. -/
theorem textAt_of_last {reading : Reading κ} {spelling : Spelling κ} {value : Option String}
    {rest : List String} (hread : optionsAt program state token = some reading)
    (hlast : reading.last = some (spelling, value)) :
    textAt program option ⟨state, token, rest⟩ =
      if spelling.option = option then value.or rest.head? else none := by
  rw [textAt, hread, Option.bind_some, hlast]

theorem textAt_eq_some {visit : Visit κ} {text : String}
    (htext : textAt program option visit = some text) :
    ∃ table reading spelling value, program.table visit.state.path = some table ∧
      readOption table visit.token = some reading ∧ reading.last = some (spelling, value) ∧
        spelling.option = option ∧ value.or visit.rest.head? = some text := by
  unfold textAt at htext
  split at htext
  next spelling value hlast =>
    obtain ⟨reading, hread, hlast⟩ := Option.bind_eq_some_iff.mp hlast
    obtain ⟨-, table, htable, hoptions⟩ := mode_of_optionsAt hread
    obtain ⟨hown, htext⟩ := Option.ite_none_right_eq_some.mp htext
    exact ⟨table, reading, spelling, value, htable, hoptions, hlast, hown, htext⟩
  · cases htext

theorem textAt_of_flags {reading : Reading κ} {rest : List String}
    (hread : optionsAt program state token = some reading) (hlast : reading.last = none) :
    textAt program option ⟨state, token, rest⟩ = none := by
  rw [textAt, hread, Option.bind_some, hlast]

theorem textAt_of_none {rest : List String} (hnone : optionsAt program state token = none) :
    textAt program option ⟨state, token, rest⟩ = none := by
  rw [textAt, hnone, Option.bind_none]

variable (hone : TakesOne program option)

include hone

/-- What options of one token do to the value of an option. -/
theorem pending_read {reading : Reading κ} {rest : List String}
    (hread : optionsAt program state token = some reading) :
    Feeds option (state.read reading) ∧ pending option (state.read reading) rest =
      (textAt program option ⟨state, token, rest⟩).or (state.value option) := by
  obtain ⟨-, table, htable, hoptions⟩ := mode_of_optionsAt hread
  have hflags : ∀ flag ∈ reading.flags, flag.1 ≠ option := by
    intro flag hflag hsame
    obtain ⟨spelling, hspells, hown, htakes⟩ := spells_of_flags hoptions hflag
    rw [hone _ _ _ htable hspells (hown.trans hsame)] at htakes
    cases htakes
  cases hlast : reading.last with
  | none =>
    have hnext : state.read reading =
        { state with bound := state.bound ++ reading.flags, mode := .ready } := by
      rw [State.read, hlast]
    rw [hnext, textAt_of_flags hread hlast, Option.none_or]
    have hvalue : State.value
        { state with bound := state.bound ++ reading.flags, mode := .ready } option =
        state.value option := value_flags hflags
    exact ⟨trivial, hvalue⟩
  | some found =>
    obtain ⟨spelling, value⟩ := found
    have htakes : spelling.option = option → spelling.takes = .one :=
      hone _ _ _ htable (spells_of_last hoptions hlast).1
    cases value with
    | none =>
      have hnext : state.read reading =
          { state with bound := state.bound ++ reading.flags, mode := .awaiting spelling } := by
        rw [State.read, hlast]
      have hvalue : State.value
          { state with bound := state.bound ++ reading.flags, mode := .awaiting spelling }
          option = state.value option := value_flags hflags
      rw [hnext, textAt_of_last hread hlast, pending_of_awaiting rfl, hvalue]
      refine ⟨htakes, ?_⟩
      split
      · rfl
      · rfl
    | some value =>
      have hnext : state.read reading =
          { State.bind { state with bound := state.bound ++ reading.flags } spelling.option value
            with mode := State.behind spelling } := by
        rw [State.read, hlast]
      have hvalue : (State.bind { state with bound := state.bound ++ reading.flags }
          spelling.option value).value option =
          if spelling.option = option then some value else state.value option :=
        value_bind.trans (by rw [value_flags hflags])
      rw [hnext, textAt_of_last hread hlast, pending_of_not_awaiting fun own => behind_ne_awaiting]
      refine ⟨feeds_behind htakes rfl, Eq.trans hvalue ?_⟩
      split
      · rfl
      · rfl

/-- What one token does to it. -/
theorem pending_step {rest : List String} (hfeeds : Feeds option state)
    (hstep : step program state token = some next) :
    Feeds option next ∧ pending option next rest =
      (textAt program option ⟨state, token, rest⟩).or (pending option state (token :: rest)) := by
  rcases step_cases hstep with ⟨reading, hread, hnext⟩ | ⟨spelling, hmode, hnext⟩ |
    ⟨own, hmode, hnone, hnext⟩ | ⟨hnone, hbound, hopen, hmode⟩
  · rw [hnext, pending_of_not_awaiting (mode_of_optionsAt hread).1]
    exact pending_read hone hread
  · subst hnext
    unfold Feeds at hfeeds
    rw [hmode] at hfeeds
    refine ⟨feeds_behind hfeeds rfl, ?_⟩
    have hnone : optionsAt program state token = none := by rw [optionsAt, hmode]
    rw [pending_of_not_awaiting fun own => behind_ne_awaiting, textAt_of_none hnone, Option.none_or,
      pending_of_awaiting hmode]
    exact value_bind
  · subst hnext
    unfold Feeds at hfeeds
    rw [hmode] at hfeeds
    have hopen : ∀ spelling, state.mode ≠ .awaiting spelling := by
      intro spelling hawaiting
      rw [hmode] at hawaiting
      cases hawaiting
    refine ⟨?_, ?_⟩
    · show Feeds option { state.bind own token with mode := state.mode }
      unfold Feeds
      dsimp only
      rw [hmode]
      exact hfeeds
    · have hafter : pending option (state.bind own token) rest =
          (state.bind own token).value option := pending_of_not_awaiting hopen
      rw [hafter, pending_of_not_awaiting hopen, value_bind, if_neg hfeeds, textAt_of_none hnone,
        Option.none_or]
  · refine ⟨?_, ?_⟩
    · unfold Feeds
      rcases hmode with hready | hplain
      · rw [hready]
        trivial
      · rw [hplain]
        trivial
    · have hafter : ∀ spelling, next.mode ≠ .awaiting spelling := by
        intro spelling hawaiting
        rcases hmode with hready | hplain
        · rw [hready] at hawaiting
          cases hawaiting
        · rw [hplain] at hawaiting
          cases hawaiting
      rw [pending_of_not_awaiting hopen, pending_of_not_awaiting hafter, value_congr hbound,
        textAt_of_none hnone, Option.none_or]

/-- The value of an option is the last text that it is given. -/
theorem value_of_runFrom (hfeeds : Feeds option state)
    (hrun : (machine program).runFrom state tokens = some final) :
    final.value option =
      (((visits program state tokens).filterMap (textAt program option)).getLast?).or
        (pending option state tokens) := by
  induction tokens generalizing state with
  | nil =>
    cases hrun
    unfold pending
    split
    · split <;> rfl
    · rfl
    · rfl
    · rfl
  | cons token rest ih =>
    obtain ⟨next, hstep, hrest⟩ := Option.bind_eq_some_iff.mp hrun
    have hstep : step program state token = some next := hstep
    obtain ⟨hnext, hpending⟩ : Feeds option next ∧ pending option next rest = _ :=
      pending_step hone hfeeds hstep
    rw [ih hnext hrest, hpending, visits, hstep]
    cases htext : textAt program option ⟨state, token, rest⟩ with
    | none => rw [List.filterMap_cons_none htext, Option.none_or]
    | some text =>
      rw [List.filterMap_cons_some htext, Option.some_or]
      cases hmore : (visits program next rest).filterMap (textAt program option) with
      | nil => rfl
      | cons first others => rw [List.getLast?_cons_cons, List.getLast?_cons]; rfl

theorem value_of_parse (hparse : parse program tokens = some final) :
    final.value option =
      ((visits program {} tokens).filterMap (textAt program option)).getLast? := by
  have hstart : Feeds option ({} : State κ) := trivial
  rw [value_of_runFrom hone hstart (Option.filter_eq_some_iff.mp hparse).1]
  exact Option.or_none

end

end DbtCraft.Python.CommandLine

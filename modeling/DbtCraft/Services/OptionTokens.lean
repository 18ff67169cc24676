/-
# The tokens of run options

What `append_run_options` asks of the options of a request, and the tokens that it puts
behind the argv. Each option is looked at beside the tokens of those before it, which no
later check takes for a flag or for a part of the subcommand.
-/

import DbtCraft.Services.DbtArgv
import Mathlib.Data.List.TakeWhile
import Mathlib.Tactic.Common

namespace DbtCraft.Services.OptionTokens

open DbtCraft.Python DbtCraft.Services.DbtArgv

/-- An argv runs a subcommand of a table, under either of its names. -/
def takes (argv commands : List String) : Bool :=
  decide (dbtCommandKey argv ∈ commands) || decide (argv.getD 1 "" ∈ commands)

/-! ## The tokens of each option -/

section

variable (argv : List String) (options : DbtRunOptions)

def VarsTokens (tokens : List String) : Prop :=
  match options.vars with
  | none => tokens = []
  | some vars =>
    hasFlag argv "--vars" = false ∧
      if vars.isEmpty then tokens = []
      else takes argv varsCommands = true ∧ ∃ text,
        serializeJsonArg vars "vars" maxVarsBytes = .ok text ∧ tokens = ["--vars", text]

def EmptyTokens (tokens : List String) : Prop :=
  if options.empty then
    takes argv emptyCommands = true ∧ hasFlag argv "--empty" = false ∧ tokens = ["--empty"]
  else tokens = []

def SampleTokens (tokens : List String) : Prop :=
  if options.sample.getD "" = "" then tokens = []
  else takes argv sampleCommands = true ∧ hasFlag argv "--sample" = false ∧
    ∃ count grain, sampleParts (options.sample.getD "") = some (count, grain) ∧
      tokens = ["--sample", count ++ " " ++ grain]

def EventTimeTokens (tokens : List String) : Prop :=
  match options.eventTimeStart, options.eventTimeEnd with
  | none, none => tokens = []
  | some first, some last =>
    takes argv eventTimeCommands = true ∧ hasFlag argv "--event-time-start" = false ∧
      hasFlag argv "--event-time-end" = false ∧
        ∃ startAt endAt, eventTime first = .ok startAt ∧ eventTime last = .ok endAt ∧
          startAt < endAt ∧ tokens = ["--event-time-start", Datetime.strftime startAt,
            "--event-time-end", Datetime.strftime endAt]
  | _, _ => False

def FullRefreshTokens (tokens : List String) : Prop :=
  if options.fullRefresh then
    takes argv fullRefreshCommands = true ∧
      tokens = if hasFlag argv "--full-refresh" then [] else ["--full-refresh"]
  else tokens = []

/-- The project defines a selector, where the project is known. -/
def DefinesSelector (selectorsYml : Option SelectorsYml) (name : String) : Prop :=
  ∀ file ∈ selectorsYml, ∃ names, projectSelectorNames file = .ok (some names) ∧
    names.any (isStr name) = true

def SelectorTokens (selectorsYml : Option SelectorsYml) (tokens : List String) : Prop :=
  let name := options.selectorName.getD ""
  if name = "" then tokens = []
  else takes argv selectorCommands = true ∧ hasFlag argv "--select" = false ∧
    hasFlag argv "-s" = false ∧ hasFlag argv "--selector" = false ∧
      isSelectorName name = true ∧ DefinesSelector selectorsYml name ∧
        tokens = ["--selector", name]

end

variable {argv out tokens before commands : List String} {options : DbtRunOptions}
  {selectorsYml : Option SelectorsYml} {flag text field : String}

/-! ## The checks -/

theorem supported_bind {isSet : Bool} {next : Bool → Except Raised (List String)} :
    (supported argv field commands isSet >>= next) = .ok out ↔
      (isSet = true → takes argv commands = true) ∧ next isSet = .ok out := by
  have htakes : takes argv commands = true ↔
      dbtCommandKey argv ∈ commands ∨ argv.getD 1 "" ∈ commands := by
    rw [takes, Bool.or_eq_true, decide_eq_true_iff, decide_eq_true_iff]
  rw [htakes, supported]
  cases isSet with
  | false => simp [bind, Except.bind]
  | true =>
    rw [if_neg (by decide)]
    split
    next htakes => simp only [bind, Except.bind, htakes, implies_true, true_and]
    next hrefused => simp only [bind, Except.bind, reduceCtorEq, forall_const, hrefused, false_and]

theorem conflict_bind {next : Unit → Except Raised (List String)} :
    (conflict argv flag >>= next) = .ok out ↔
      hasFlag argv flag = false ∧ next () = .ok out := by
  rw [conflict]
  split
  next hflag => simp [bind, Except.bind, hflag]
  next hflag => simp [bind, Except.bind, Bool.eq_false_iff.mpr hflag]

theorem pure_eq_ok : (pure argv : Except Raised (List String)) = .ok out ↔
    ∃ tokens, tokens = [] ∧ out = argv ++ tokens := by
  simp only [pure, Except.pure, Except.ok.injEq, exists_eq_left, List.append_nil]
  exact eq_comm

theorem appendVars_eq_ok :
    appendVars argv options = .ok out ↔
      ∃ tokens, VarsTokens argv options tokens ∧ out = argv ++ tokens := by
  unfold appendVars VarsTokens
  cases options.vars with
  | none => exact pure_eq_ok
  | some vars =>
    simp only [conflict_bind, supported_bind]
    cases vars with
    | nil =>
      simp only [List.isEmpty_nil, Bool.not_true, Bool.false_eq_true, false_implies, true_and,
        if_false, if_true, pure_eq_ok, and_assoc, exists_and_left]
    | cons first rest =>
      simp only [List.isEmpty_cons, Bool.not_false, if_true, bind_eq_ok, forall_const,
        Bool.false_eq_true, if_false]
      apply Iff.intro
      · intro ⟨hflag, htakes, text, htext, hout⟩
        cases hout
        exact ⟨_, ⟨hflag, htakes, text, htext, rfl⟩, rfl⟩
      · intro ⟨_, ⟨hflag, htakes, text, htext, htokens⟩, hout⟩
        cases htokens
        exact ⟨hflag, htakes, text, htext, hout ▸ rfl⟩

theorem appendEmpty_eq_ok :
    appendEmpty argv options = .ok out ↔
      ∃ tokens, EmptyTokens argv options tokens ∧ out = argv ++ tokens := by
  unfold appendEmpty EmptyTokens
  rw [supported_bind]
  cases options.empty with
  | false => simpa only [Bool.false_eq_true, false_implies, true_and, if_false] using pure_eq_ok
  | true =>
    simp only [if_true, conflict_bind, forall_const]
    apply Iff.intro
    · intro ⟨htakes, hflag, hout⟩
      cases hout
      exact ⟨_, ⟨htakes, hflag, rfl⟩, rfl⟩
    · intro ⟨_, ⟨htakes, hflag, htokens⟩, hout⟩
      cases htokens
      exact ⟨htakes, hflag, hout ▸ rfl⟩

theorem appendSample_eq_ok :
    appendSample argv options = .ok out ↔
      ∃ tokens, SampleTokens argv options tokens ∧ out = argv ++ tokens := by
  unfold appendSample SampleTokens
  rw [supported_bind]
  simp only [decide_eq_true_eq]
  by_cases hsample : options.sample.getD "" = ""
  · simpa only [hsample, ne_eq, not_true, false_implies, true_and, if_false, if_true] using
      pure_eq_ok
  · simp only [hsample, ne_eq, not_false_eq_true, forall_const, if_true,
      conflict_bind]
    cases hparts : sampleParts (options.sample.getD "") with
    | none => simp [throw, throwThe, MonadExceptOf.throw]
    | some parts =>
      apply Iff.intro
      · intro ⟨htakes, hflag, hout⟩
        cases hout
        exact ⟨_, ⟨htakes, hflag, parts.1, parts.2, rfl, rfl⟩, rfl⟩
      · intro ⟨_, ⟨htakes, hflag, count, grain, hsome, htokens⟩, hout⟩
        cases hsome
        cases htokens
        exact ⟨htakes, hflag, hout ▸ rfl⟩

theorem appendEventTime_eq_ok :
    appendEventTime argv options = .ok out ↔
      ∃ tokens, EventTimeTokens argv options tokens ∧ out = argv ++ tokens := by
  unfold appendEventTime EventTimeTokens
  rw [supported_bind]
  cases options.eventTimeStart with
  | none =>
    cases options.eventTimeEnd with
    | none =>
      simpa only [Option.isSome_none, Bool.or_self, Bool.false_eq_true, false_implies, true_and,
        if_false] using pure_eq_ok
    | some last => simp [throw, throwThe, MonadExceptOf.throw]
  | some first =>
    cases options.eventTimeEnd with
    | none => simp [throw, throwThe, MonadExceptOf.throw]
    | some last =>
      simp only [Option.isSome_some, Bool.or_self, if_true, forall_const]
      rw [conflict_bind, conflict_bind]
      simp only [bind_eq_ok]
      apply Iff.intro
      · intro ⟨htakes, hstart, hend, startAt, hfirst, endAt, hlast, hout⟩
        split at hout
        · cases hout
        next horder =>
          cases hout
          exact ⟨_, ⟨htakes, hstart, hend, startAt, endAt, hfirst, hlast,
            Nat.lt_of_not_le horder, rfl⟩, rfl⟩
      · intro ⟨_, ⟨htakes, hstart, hend, startAt, endAt, hfirst, hlast, horder, htokens⟩, hout⟩
        cases htokens
        refine ⟨htakes, hstart, hend, startAt, hfirst, endAt, hlast, ?_⟩
        rw [if_neg (Nat.not_le_of_lt horder), hout]
        rfl

theorem appendFullRefresh_eq_ok :
    appendFullRefresh argv options = .ok out ↔
      ∃ tokens, FullRefreshTokens argv options tokens ∧ out = argv ++ tokens := by
  unfold appendFullRefresh FullRefreshTokens
  rw [supported_bind]
  cases options.fullRefresh with
  | false => simpa only [Bool.false_eq_true, false_implies, true_and, if_false] using pure_eq_ok
  | true =>
    simp only [if_true, forall_const]
    apply Iff.intro
    · intro ⟨htakes, hout⟩
      cases hout
      refine ⟨_, ⟨htakes, rfl⟩, ?_⟩
      split
      · rw [List.append_nil]
      · rfl
    · intro ⟨_, ⟨htakes, htokens⟩, hout⟩
      cases htokens
      refine ⟨htakes, ?_⟩
      rw [hout]
      split
      · rw [List.append_nil]
        rfl
      · rfl

theorem throw_bind {refused : Prop} [Decidable refused] {raised : Raised}
    {next : PUnit → Except Raised (List String)} {rest : Except Raised (List String)} :
    (if refused then throw raised >>= next else rest) = .ok out ↔ ¬refused ∧ rest = .ok out := by
  split
  next hrefused => simp [hrefused, throw, throwThe, MonadExceptOf.throw, bind, Except.bind]
  next hrefused => simp [hrefused]

/-- The look at `selectors.yml`, and what comes after it. -/
theorem definesSelector_bind {name : String} {next : Except Raised (List String)} :
    (match selectorsYml with
      | none => next
      | some file => do
        match ← projectSelectorNames file with
        | none => do
          throw (refuse "the project has no selectors.yml, so no selector can be named")
          next
        | some names =>
          if names.any (isStr name) = false then do
            throw (refuse ("selectors.yml defines no selector named '" ++ name ++ "'"))
            next
          else next) = .ok out ↔
      DefinesSelector selectorsYml name ∧ next = .ok out := by
  cases selectorsYml with
  | none => simp [DefinesSelector]
  | some file =>
    simp only [DefinesSelector, Option.mem_some_iff, forall_eq', bind_eq_ok]
    apply Iff.intro
    · intro ⟨found, hfound, hnext⟩
      cases found with
      | none =>
        obtain ⟨_, hthrow, -⟩ := bind_eq_ok.mp hnext
        cases hthrow
      | some names =>
        obtain ⟨hdefined, hnext⟩ := throw_bind.mp hnext
        exact ⟨⟨names, hfound, by simpa using hdefined⟩, hnext⟩
    · intro ⟨⟨names, hfound, hdefined⟩, hnext⟩
      exact ⟨_, hfound, throw_bind.mpr ⟨by simp [hdefined], hnext⟩⟩

theorem appendSelector_eq_ok :
    appendSelector argv options selectorsYml = .ok out ↔
      ∃ tokens, SelectorTokens argv options selectorsYml tokens ∧ out = argv ++ tokens := by
  unfold appendSelector SelectorTokens
  dsimp only
  rw [supported_bind]
  simp only [decide_eq_true_eq]
  by_cases hname : options.selectorName.getD "" = ""
  · simpa only [hname, ne_eq, not_true, false_implies, true_and, if_false, if_true] using
      pure_eq_ok
  · simp only [hname, ne_eq, not_false_eq_true, forall_const, if_true, if_false, throw_bind,
      conflict_bind, Bool.or_eq_true, not_or, Bool.not_eq_true, Bool.not_eq_false]
    apply Iff.intro
    · intro ⟨htakes, ⟨hselect, hs⟩, hselector, hshape, hrest⟩
      obtain ⟨hdefines, hout⟩ := definesSelector_bind.mp hrest
      cases hout
      exact ⟨_, ⟨htakes, hselect, hs, hselector, hshape, hdefines, rfl⟩, rfl⟩
    · intro ⟨_, ⟨htakes, hselect, hs, hselector, hshape, hdefines, htokens⟩, hout⟩
      cases htokens
      exact ⟨htakes, ⟨hselect, hs⟩, hselector, hshape,
        definesSelector_bind.mpr ⟨hdefines, hout ▸ rfl⟩⟩

/-! ## One option behind another -/

/-- Tokens that begin with a flag do not change which subcommand it is. -/
theorem takes_append (hlength : 2 ≤ argv.length)
    (hbefore : ∀ token ∈ before.head?, startsWith token "-" = true) :
    takes (argv ++ before) commands = takes argv commands := by
  have hkey : dbtCommandKey (argv ++ before) = dbtCommandKey argv := by
    match argv with
    | [] | [_] => simp at hlength
    | _ :: subcommand :: next :: rest => rfl
    | [program, subcommand] =>
      cases before with
      | nil => rfl
      | cons token rest =>
        have htoken : startsWith token "-" = true := hbefore token rfl
        simp [dbtCommandKey, htoken]
  rw [takes, takes, hkey, List.getD_eq_getElem?_getD, List.getD_eq_getElem?_getD,
    List.getElem?_append_left (Nat.lt_of_succ_le hlength)]

/-- Flags that `append_run_options` looks for, in the order in which it does. -/
def checkedFlags : List String :=
  ["--vars", "--empty", "--sample", "--event-time-start", "--event-time-end", "--full-refresh",
    "--select", "-s", "--selector"]

/-- Tokens that the checks from one flag on do not see. -/
structure Quiet (tokens : List String) (checked : ℕ) : Prop where
  head : ∀ token ∈ tokens.head?, startsWith token "-" = true
  unflagged : ∀ token ∈ tokens, ∀ flag ∈ checkedFlags.drop checked, isFlag token flag = false

theorem Quiet.nil {checked : ℕ} : Quiet [] checked := ⟨nofun, nofun⟩

theorem Quiet.append {others : List String} {checked count : ℕ} (hfirst : Quiet before checked)
    (hlater : checked ≤ count) (hothers : Quiet others count) : Quiet (before ++ others) count := by
  apply Quiet.mk
  · cases before with
    | nil => exact hothers.head
    | cons token rest => exact hfirst.head
  · intro token htoken flag hflag
    rcases List.mem_append.mp htoken with hbefore | hrest
    · exact hfirst.unflagged token hbefore flag
        ((List.drop_sublist_drop_left checkedFlags hlater).subset hflag)
    · exact hothers.unflagged token hrest flag hflag

theorem Quiet.hasFlag_append {checked : ℕ} (hquiet : Quiet before checked)
    (hlength : 2 ≤ argv.length) (hflag : flag ∈ checkedFlags.drop checked) :
    hasFlag (argv ++ before) flag = hasFlag argv flag := by
  have hnone : (before.any fun token => isFlag token flag) = false :=
    List.any_eq_false.mpr fun token htoken => by
      simp [hquiet.unflagged token htoken flag hflag]
  rw [hasFlag, hasFlag, List.drop_append_of_le_length hlength, List.any_append, hnone,
    Bool.or_false]

/-- A text that begins with another character than a dash. -/
theorem startsWith_dash {start rest : String} {first : Char} {others : List Char}
    (hstart : start.toList = first :: others) (hfirst : first ≠ '-') :
    startsWith (start ++ rest) "-" = false := by
  have hdash : "-".toList = ['-'] := rfl
  rw [startsWith, String.toList_append, hstart, hdash, List.cons_append, List.isPrefixOf_cons_cons,
    beq_eq_false_iff_ne.mpr (Ne.symm hfirst), Bool.false_and]

/-- A text that does not begin with a dash is no flag. -/
theorem isFlag_of_value (hvalue : startsWith text "-" = false) (hflag : flag ∈ checkedFlags) :
    isFlag text flag = false := by
  have hdash : ∀ flag ∈ checkedFlags, ∃ rest, flag.toList = '-' :: rest := by
    simp [checkedFlags]
  obtain ⟨rest, hrest⟩ := hdash flag hflag
  cases htext : text.toList with
  | nil =>
    have hne : text ≠ flag := fun hsame => by simp [hsame, hrest] at htext
    simp [isFlag, startsWith, hne, htext, hrest]
  | cons first others =>
    have hfirst : '-' ≠ first := fun hsame => by simp [startsWith, htext, ← hsame] at hvalue
    have hne : text ≠ flag := fun hsame => by
      rw [hsame, hrest] at htext
      exact hfirst (List.cons.inj htext).1
    have hstart : (flag ++ "=").toList = '-' :: (rest ++ ['=']) := by
      rw [String.toList_append, hrest]
      rfl
    rw [isFlag, startsWith, htext, hstart, List.isPrefixOf_cons_cons, beq_eq_false_iff_ne.mpr hfirst,
      Bool.false_and, Bool.or_false, decide_eq_false hne]

/-- A flag and a value. -/
theorem Quiet.pair {name : String} {checked : ℕ} (hname : startsWith name "-" = true)
    (hother : ∀ flag ∈ checkedFlags.drop checked, isFlag name flag = false)
    (hvalue : startsWith text "-" = false) : Quiet [name, text] checked := by
  apply Quiet.mk
  · intro token htoken
    cases htoken
    exact hname
  · intro token htoken flag hflag
    simp only [List.mem_cons, List.not_mem_nil, or_false] at htoken
    rcases htoken with rfl | rfl
    · exact hother flag hflag
    · exact isFlag_of_value hvalue (List.mem_of_mem_drop hflag)

/-! ### Values -/

theorem startsWith_of_serializeJsonArg {vars : List (Value × Value)} {limit : ℕ}
    (htext : serializeJsonArg vars field limit = .ok text) : startsWith text "-" = false := by
  simp only [serializeJsonArg, jsonDumps] at htext
  cases hmembers : jsonMembers vars with
  | error raised => simp [hmembers, bind, Except.bind] at htext
  | ok written =>
    simp only [hmembers, bind, Except.bind, pure, Except.pure] at htext
    split at htext
    · cases htext
    · cases htext
      rw [String.append_assoc]
      have hbrace : "\x7b".toList = ['\x7b'] := rfl
      exact startsWith_dash hbrace (by decide)

theorem startsWith_of_sampleParts {count grain : String}
    (hparts : sampleParts text = some (count, grain)) :
    startsWith (count ++ " " ++ grain) "-" = false := by
  obtain ⟨hshape, hparts⟩ := Option.ite_none_right_eq_some.mp hparts
  cases hparts
  cases hdigits : (text.toList.dropWhile isSpace).takeWhile Char.isDigit with
  | nil => exact absurd hdigits hshape.1
  | cons first rest =>
    have hfirst : first.isDigit = true :=
      List.mem_takeWhile_imp (hdigits ▸ List.mem_cons_self)
    rw [String.append_assoc]
    exact startsWith_dash String.toList_ofList fun hsame => by simp [hsame] at hfirst

theorem startsWith_strftime (wall : ℕ) : startsWith (Datetime.strftime wall) "-" = false := by
  cases hdigits : Nat.toDigits 10 (Datetime.civil (wall / 1000000 / 86400)).1 with
  | nil => exact absurd hdigits Nat.toDigits_ne_nil
  | cons first rest =>
    have hfirst : first.isDigit = true :=
      Nat.isDigit_of_mem_toDigits (by decide) (by decide) (hdigits ▸ List.mem_cons_self)
    simp only [Datetime.strftime, String.append_assoc]
    exact startsWith_dash (Nat.toList_repr.trans hdigits) fun hsame => by simp [hsame] at hfirst

/-! ### Each option -/

theorem VarsTokens.quiet (htokens : VarsTokens argv options tokens) : Quiet tokens 1 := by
  unfold VarsTokens at htokens
  split at htokens
  · exact htokens ▸ Quiet.nil
  · obtain ⟨-, hvars⟩ := htokens
    split at hvars
    · exact hvars ▸ Quiet.nil
    · obtain ⟨-, text, htext, hvars⟩ := hvars
      exact hvars ▸ Quiet.pair (by decide) (by decide) (startsWith_of_serializeJsonArg htext)

theorem EmptyTokens.quiet (htokens : EmptyTokens argv options tokens) : Quiet tokens 2 := by
  unfold EmptyTokens at htokens
  split at htokens
  · exact htokens.2.2 ▸ ⟨by decide, by decide⟩
  · exact htokens ▸ Quiet.nil

theorem SampleTokens.quiet (htokens : SampleTokens argv options tokens) : Quiet tokens 3 := by
  unfold SampleTokens at htokens
  split at htokens
  · exact htokens ▸ Quiet.nil
  · obtain ⟨-, -, count, grain, hparts, htokens⟩ := htokens
    exact htokens ▸ Quiet.pair (by decide) (by decide) (startsWith_of_sampleParts hparts)

theorem EventTimeTokens.quiet (htokens : EventTimeTokens argv options tokens) :
    Quiet tokens 5 := by
  unfold EventTimeTokens at htokens
  split at htokens
  · exact htokens ▸ Quiet.nil
  · obtain ⟨-, -, -, startAt, endAt, -, -, -, htokens⟩ := htokens
    have hstart : Quiet ["--event-time-start", Datetime.strftime startAt] 5 :=
      Quiet.pair (by decide) (by decide) (startsWith_strftime startAt)
    have hend : Quiet ["--event-time-end", Datetime.strftime endAt] 5 :=
      Quiet.pair (by decide) (by decide) (startsWith_strftime endAt)
    exact htokens ▸ hstart.append le_rfl hend
  · exact htokens.elim

theorem FullRefreshTokens.quiet (htokens : FullRefreshTokens argv options tokens) :
    Quiet tokens 6 := by
  unfold FullRefreshTokens at htokens
  split at htokens
  · rw [htokens.2]
    split
    · exact Quiet.nil
    · exact ⟨by decide, by decide⟩
  · exact htokens ▸ Quiet.nil

section

variable (hlength : 2 ≤ argv.length)

include hlength

theorem emptyTokens_append (hquiet : Quiet before 1) :
    EmptyTokens (argv ++ before) options tokens ↔ EmptyTokens argv options tokens := by
  rw [EmptyTokens, EmptyTokens, takes_append hlength hquiet.head,
    hquiet.hasFlag_append hlength (by decide)]

theorem sampleTokens_append (hquiet : Quiet before 2) :
    SampleTokens (argv ++ before) options tokens ↔ SampleTokens argv options tokens := by
  rw [SampleTokens, SampleTokens, takes_append hlength hquiet.head,
    hquiet.hasFlag_append hlength (by decide)]

theorem eventTimeTokens_append (hquiet : Quiet before 3) :
    EventTimeTokens (argv ++ before) options tokens ↔ EventTimeTokens argv options tokens := by
  rw [EventTimeTokens, EventTimeTokens, takes_append hlength hquiet.head,
    hquiet.hasFlag_append hlength (by decide), hquiet.hasFlag_append hlength (by decide)]

theorem fullRefreshTokens_append (hquiet : Quiet before 5) :
    FullRefreshTokens (argv ++ before) options tokens ↔ FullRefreshTokens argv options tokens := by
  rw [FullRefreshTokens, FullRefreshTokens, takes_append hlength hquiet.head,
    hquiet.hasFlag_append hlength (by decide)]

theorem selectorTokens_append (hquiet : Quiet before 6) :
    SelectorTokens (argv ++ before) options selectorsYml tokens ↔
      SelectorTokens argv options selectorsYml tokens := by
  rw [SelectorTokens, SelectorTokens, takes_append hlength hquiet.head,
    hquiet.hasFlag_append hlength (by decide), hquiet.hasFlag_append hlength (by decide),
    hquiet.hasFlag_append hlength (by decide)]

end

/-! ## All options -/

/-- The tokens of the options of a request. -/
structure Tokens where
  vars : List String
  empty : List String
  sample : List String
  eventTimes : List String
  fullRefresh : List String
  selector : List String

/-- The tokens in the order in which they stand. -/
def Tokens.all (found : Tokens) : List String :=
  found.vars ++ (found.empty ++ (found.sample ++ (found.eventTimes ++
    (found.fullRefresh ++ found.selector))))

/-- Every option of a request is taken, with these tokens. -/
structure Emits (argv : List String) (options : DbtRunOptions)
    (selectorsYml : Option SelectorsYml) (found : Tokens) : Prop where
  vars : VarsTokens argv options found.vars
  empty : EmptyTokens argv options found.empty
  sample : SampleTokens argv options found.sample
  eventTimes : EventTimeTokens argv options found.eventTimes
  fullRefresh : FullRefreshTokens argv options found.fullRefresh
  selector : SelectorTokens argv options selectorsYml found.selector

/-- The options are accepted when each is, by itself, for the argv that the client built. -/
theorem appendRunOptions_eq_ok (hlength : 2 ≤ argv.length) :
    appendRunOptions argv options selectorsYml = .ok out ↔
      ∃ found, Emits argv options selectorsYml found ∧ out = argv ++ found.all := by
  simp only [appendRunOptions, bind_eq_ok, appendVars_eq_ok, appendEmpty_eq_ok, appendSample_eq_ok,
    appendEventTime_eq_ok, appendFullRefresh_eq_ok, appendSelector_eq_ok]
  apply Iff.intro
  · intro ⟨_, ⟨vars, hvars, hvars'⟩, _, ⟨empty, hempty, hempty'⟩, _, ⟨sample, hsample, hsample'⟩,
      _, ⟨times, htimes, htimes'⟩, _, ⟨full, hfull, hfull'⟩, selector, hselector, hout⟩
    subst hvars' hempty' hsample' htimes' hfull' hout
    have quietVars := hvars.quiet
    rw [emptyTokens_append hlength quietVars] at hempty
    have quietEmpty := quietVars.append (by decide) hempty.quiet
    rw [List.append_assoc argv, sampleTokens_append hlength quietEmpty] at hsample
    have quietSample := quietEmpty.append (by decide) hsample.quiet
    rw [List.append_assoc argv, List.append_assoc argv,
      eventTimeTokens_append hlength quietSample] at htimes
    have quietTimes := quietSample.append (by decide) htimes.quiet
    rw [List.append_assoc argv, List.append_assoc argv, List.append_assoc argv,
      fullRefreshTokens_append hlength quietTimes] at hfull
    have quietFull := quietTimes.append (by decide) hfull.quiet
    rw [List.append_assoc argv, List.append_assoc argv, List.append_assoc argv,
      List.append_assoc argv, selectorTokens_append hlength quietFull] at hselector
    refine ⟨⟨vars, empty, sample, times, full, selector⟩,
      ⟨hvars, hempty, hsample, htimes, hfull, hselector⟩, ?_⟩
    simp only [Tokens.all, List.append_assoc]
  · intro ⟨found, hfound, hout⟩
    have quietVars := hfound.vars.quiet
    have quietEmpty := quietVars.append (by decide) hfound.empty.quiet
    have quietSample := quietEmpty.append (by decide) hfound.sample.quiet
    have quietTimes := quietSample.append (by decide) hfound.eventTimes.quiet
    have quietFull := quietTimes.append (by decide) hfound.fullRefresh.quiet
    refine ⟨_, ⟨_, hfound.vars, rfl⟩,
      _, ⟨_, (emptyTokens_append hlength quietVars).mpr hfound.empty, rfl⟩, ?_⟩
    rw [List.append_assoc argv]
    refine ⟨_, ⟨_, (sampleTokens_append hlength quietEmpty).mpr hfound.sample, rfl⟩, ?_⟩
    rw [List.append_assoc argv]
    refine ⟨_, ⟨_, (eventTimeTokens_append hlength quietSample).mpr hfound.eventTimes, rfl⟩, ?_⟩
    rw [List.append_assoc argv]
    refine ⟨_, ⟨_, (fullRefreshTokens_append hlength quietTimes).mpr hfound.fullRefresh, rfl⟩, ?_⟩
    rw [List.append_assoc argv]
    refine ⟨_, (selectorTokens_append hlength quietFull).mpr hfound.selector, ?_⟩
    rw [hout]
    simp only [Tokens.all, List.append_assoc]

end DbtCraft.Services.OptionTokens

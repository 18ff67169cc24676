/-
# Arguments behind a command

`features/develop/model/dbt-command-args.ts`: the web app looks for a flag with a pattern in the
text of a command, and puts its own behind the text if it finds none. The runner splits the text
into words, of which dbt reads its options where they stand.
-/

import DbtCraft.Python.Shlex
import DbtCraft.Server.AiProviders
import DbtCraft.Services.TargetReading

namespace DbtCraft.Web.CommandArgs

open DbtCraft.Math DbtCraft.Python DbtCraft.Python.CommandLine
open DbtCraft.Server.AiProviders (trim)
open DbtCraft.Server.Proxy (isWhiteSpace)
open DbtCraft.Services.State (isTargetChar matchesTargetName targetNameFullmatch)
open DbtCraft.Services.TargetReading

universe uκ

abbrev Text := List Char

/-! ## Building the command -/

/-- `COMMANDS_WITH_EXTRA_ARGS`. -/
def commandsWithExtraArgs : List String := ["build", "clone", "compile", "run", "seed", "show"]

/-- `COMMANDS_WITH_FULL_REFRESH`. -/
def commandsWithFullRefresh : List String := ["build", "clone", "compile", "run", "seed", "show"]

/-- `text.trim()`. -/
def trimmedText (text : Text) : Text := (trim (String.ofList text)).toList

/-- `getDbtCommandName`. -/
def getDbtCommandName (command : Text) : String :=
  String.ofList ((trimmedText command).takeWhile (!isWhiteSpace ·))

/-- One of the names begins a text, and ends in front of a character that may follow it. -/
def namedAt (names : List String) (follows : Char → Bool) (text : Text) : Bool :=
  names.any fun name => name.toList.isPrefixOf text &&
    ((text.drop name.toList.length).head?.all follows)

/-- `/(^|\s)(name|name)(follows|$)/.test(text)`; whether a match may begin here. -/
def seesFrom (names : List String) (follows : Char → Bool) : Bool → Text → Bool
  | start, [] => start && namedAt names follows []
  | start, c :: rest => start && namedAt names follows (c :: rest) ||
      seesFrom names follows (isWhiteSpace c) rest

/-- `/(^|\s)(--full-refresh|-f)(\s|$)/`. -/
def seesFullRefresh (args : Text) : Bool :=
  seesFrom ["--full-refresh", "-f"] isWhiteSpace true args

/-- `/(^|\s)(--target|-t)(\s|=|$)/`. -/
def seesTarget (text : Text) : Bool :=
  seesFrom ["--target", "-t"] (fun c => isWhiteSpace c || c = '=') true text

/-- The flag is put behind the arguments. -/
def addsFullRefresh (commandName : String) (extraArgs : Text) (fullRefresh : Bool) : Bool :=
  fullRefresh && commandsWithFullRefresh.contains commandName &&
    !seesFullRefresh (trimmedText extraArgs)

def fullRefreshFlag : Text := "--full-refresh".toList

/-- `buildDbtAdditionalArgs`. -/
def buildDbtAdditionalArgs (commandName : String) (extraArgs : Text) (fullRefresh : Bool) : Text :=
  let args := trimmedText extraArgs
  if addsFullRefresh commandName extraArgs fullRefresh then
    if args = [] then fullRefreshFlag else args ++ ' ' :: fullRefreshFlag
  else args

/-- `commandWithArgs`. -/
def commandWithArgs (command extraArgs : Text) (fullRefresh : Bool) : Text :=
  let commandName := getDbtCommandName command
  let args := buildDbtAdditionalArgs commandName extraArgs fullRefresh
  if args ≠ [] ∧ commandName ∈ commandsWithExtraArgs then command ++ ' ' :: args else command

/-- The selected target, if its name is one; any other name is dropped. -/
def selectedTarget (target : Option Text) : Option String :=
  (target.map fun name => trim (String.ofList name)).filter targetNameFullmatch

/-- The selected target is put behind the command. -/
def addsTarget (command extraArgs : Text) (fullRefresh : Bool) : Bool :=
  !seesTarget (commandWithArgs command extraArgs fullRefresh)

/-- `buildDbtCommandWithArgs`. -/
def buildDbtCommandWithArgs (command extraArgs : Text) (fullRefresh : Bool)
    (target : Option Text) : Text :=
  match selectedTarget target with
  | none => commandWithArgs command extraArgs fullRefresh
  | some wanted =>
    if addsTarget command extraArgs fullRefresh then
      commandWithArgs command extraArgs fullRefresh ++ ' ' :: ("--target".toList ++
        ' ' :: wanted.toList)
    else commandWithArgs command extraArgs fullRefresh

/-- What the user has typed, of the extra arguments what is kept. -/
def typedText (command extraArgs : Text) : Text :=
  if trimmedText extraArgs ≠ [] ∧ getDbtCommandName command ∈ commandsWithExtraArgs then
    command ++ ' ' :: trimmedText extraArgs
  else command

/-! ## The property -/

variable {κ : Type uκ}

/-- The options of dbt: the target, which every command takes, and the full refresh. -/
structure DbtOptions (program : Program κ) (target full : κ) : Prop where
  isTarget : TargetOption program target
  everywhere : ∀ {path table}, program.table path = some table → table.isGroup = false →
    ∃ spelling, table.long "--target" = some spelling
  isFull : ∀ {path table spelling}, program.table path = some table →
    table.long "--full-refresh" = some spelling → spelling = ⟨full, .nothing "true"⟩

section

variable [DecidableEq κ] (program : Program κ) (target full : κ)

/-- Options are still read behind the words. -/
def readsOptions (state : CommandLine.State κ) : Bool :=
  match state.mode with
  | .plain => false
  | .ready | .awaiting _ | .eating _ => true

/-- How often a full refresh is asked for. -/
def fullRefreshes (state : CommandLine.State κ) : ℕ := state.bound.count (full, "true")

/-- The command that is read takes the flag. -/
def TakesFullRefresh (state : CommandLine.State κ) : Prop :=
  ∃ table, program.table state.path = some table ∧ (table.long "--full-refresh").isSome = true

/-- What the web app may put behind the words. -/
def appendedWords (adds : Bool) (wanted : Option String) : List String :=
  (if adds then ["--full-refresh"] else []) ++
    match wanted with
    | some name => ["--target", name]
    | none => []

/-- dbt reads the command: with the target that was typed, or else the one that is selected; with
one full refresh where one is asked for; and with the words that were typed. -/
def Agrees (command extraArgs : Text) (fullRefresh : Bool) (selected : Option Text)
    (typed : List String) (typedState : CommandLine.State κ) : Prop :=
  ∃ words final adds wanted,
    shlexOf (buildDbtCommandWithArgs command extraArgs fullRefresh selected) = .ok words ∧
    CommandLine.parse program words = some final ∧
    final.value target = (typedState.value target).or (selectedTarget selected) ∧
    (fullRefresh = true → TakesFullRefresh program typedState → fullRefreshes full final = 1) ∧
    words = typed ++ appendedWords adds wanted

/-- The target is put behind the words if and only if none is read in them; behind `--` it is not
read, and a target that is typed already may be put there again. -/
def TellsTarget (command extraArgs : Text) (fullRefresh : Bool) (selected : String)
    (typedState : CommandLine.State κ) : Prop :=
  if addsTarget command extraArgs fullRefresh = true ∧ readsOptions typedState = true then
    ∀ typed, typedState.value target = some typed → typed = selected
  else typedState.value target ≠ none

/-- The flag is put behind the words if the command takes it and does not have it yet. -/
def TellsFullRefresh (command extraArgs : Text) (fullRefresh : Bool)
    (typedState : CommandLine.State κ) : Prop :=
  let adds := addsFullRefresh (getDbtCommandName command) extraArgs fullRefresh
  (adds = true → readsOptions typedState = true → TakesFullRefresh program typedState) ∧
    (fullRefresh = true → TakesFullRefresh program typedState →
      fullRefreshes full typedState = if adds = true ∧ readsOptions typedState = true then 0 else 1)

end

/-! ## The text -/

section

variable {command extraArgs : Text} {fullRefresh : Bool} {selected : Option Text}

/-- The command with its arguments is what was typed, and the flag behind it. -/
theorem commandWithArgs_eq : commandWithArgs command extraArgs fullRefresh =
    if addsFullRefresh (getDbtCommandName command) extraArgs fullRefresh = true then
      typedText command extraArgs ++ ' ' :: fullRefreshFlag
    else typedText command extraArgs := by
  unfold commandWithArgs buildDbtAdditionalArgs typedText
  by_cases hadds : addsFullRefresh (getDbtCommandName command) extraArgs fullRefresh = true
  · have hnamed : getDbtCommandName command ∈ commandsWithExtraArgs := by
      rw [addsFullRefresh, Bool.and_eq_true, Bool.and_eq_true] at hadds
      exact List.contains_iff_mem.mp hadds.1.2
    by_cases hempty : trimmedText extraArgs = []
    · simp only [if_pos hadds, if_pos hempty]
      rw [if_pos ⟨by decide, hnamed⟩, if_neg fun hboth => hboth.1 hempty]
    · simp only [if_pos hadds, if_neg hempty]
      rw [if_pos ⟨by simp, hnamed⟩, if_pos ⟨hempty, hnamed⟩, List.append_assoc]
      rfl
  · simp only [if_neg hadds]

/-- The flag and the target that are put behind the words. -/
def wantedTarget (command extraArgs : Text) (fullRefresh : Bool) (selected : Option Text) :
    Option String :=
  (selectedTarget selected).filter fun _ => addsTarget command extraArgs fullRefresh

/-- A name of a target is one word. -/
theorem isPlain_of_isTargetChar {c : Char} (hc : isTargetChar c = true) : isPlain c = true := by
  have hother : ∀ other : Char, isTargetChar other = false → c ≠ other := by
    intro other hnot hsame
    rw [hsame, hnot] at hc
    cases hc
  simp only [isPlain, isShlexSpace, isShlexQuote, hother ' ' rfl, hother '\t' rfl, hother '\r' rfl,
    hother '\n' rfl, hother '\'' rfl, hother '"' rfl, hother '\\' rfl, ne_eq, decide_false,
    decide_true, not_false_eq_true, Bool.or_false, Bool.not_false, Bool.and_true]

theorem shlexOf_target {wanted : String} (hname : targetNameFullmatch wanted = true) :
    shlexOf wanted.toList = .ok [wanted] := by
  unfold targetNameFullmatch at hname
  cases hchars : wanted.toList with
  | nil =>
    rw [hchars] at hname
    cases hname
  | cons first rest =>
    rw [hchars, matchesTargetName, Bool.and_eq_true, Bool.and_eq_true] at hname
    have hplain : ∀ c ∈ first :: rest, isPlain c = true := by
      intro c hc
      apply isPlain_of_isTargetChar
      rcases List.mem_cons.mp hc with rfl | hrest
      · rw [isTargetChar, hname.1.1]
        rfl
      · exact List.all_eq_true.mp hname.2 c hrest
    rw [shlexOf_plain (List.cons_ne_nil _ _) hplain, ← hchars, String.ofList_toList]

theorem targetNameFullmatch_of_selectedTarget {wanted : String}
    (hwanted : selectedTarget selected = some wanted) : targetNameFullmatch wanted = true :=
  (Option.filter_eq_some_iff.mp hwanted).2

theorem buildDbtCommandWithArgs_eq :
    buildDbtCommandWithArgs command extraArgs fullRefresh selected =
    match wantedTarget command extraArgs fullRefresh selected with
    | some wanted => commandWithArgs command extraArgs fullRefresh ++ ' ' ::
        ("--target".toList ++ ' ' :: wanted.toList)
    | none => commandWithArgs command extraArgs fullRefresh := by
  unfold buildDbtCommandWithArgs wantedTarget
  cases selectedTarget selected with
  | none => rfl
  | some wanted =>
    cases hadds : addsTarget command extraArgs fullRefresh with
    | true =>
      rw [Option.filter_some]
      rfl
    | false =>
      rw [Option.filter_some]
      rfl

/-- The words of what was typed stand in front of those that are put behind it. -/
theorem shlexOf_buildDbtCommandWithArgs {typed : List String} (fullRefresh : Bool)
    (selected : Option Text) (htyped : shlexOf (typedText command extraArgs) = .ok typed) :
    shlexOf (buildDbtCommandWithArgs command extraArgs fullRefresh selected) =
      .ok (typed ++ appendedWords
        (addsFullRefresh (getDbtCommandName command) extraArgs fullRefresh)
        (wantedTarget command extraArgs fullRefresh selected)) := by
  have hblank : isShlexSpace ' ' = true := rfl
  have hwith : ∃ words, shlexOf (commandWithArgs command extraArgs fullRefresh) = .ok words ∧
      words = typed ++
        if addsFullRefresh (getDbtCommandName command) extraArgs fullRefresh then
          ["--full-refresh"] else [] := by
    rw [commandWithArgs_eq]
    split
    · have hflag : shlexOf fullRefreshFlag = .ok ["--full-refresh"] := rfl
      exact ⟨_, by rw [shlexOf, shlexWords_append hblank (fun _ => ⟨rfl, rfl⟩) htyped, hflag]; rfl,
        rfl⟩
    · exact ⟨typed, htyped, (List.append_nil typed).symm⟩
  obtain ⟨words, hwords, hsame⟩ := hwith
  rw [buildDbtCommandWithArgs_eq]
  unfold appendedWords
  rw [← List.append_assoc, ← hsame]
  cases hwanted : wantedTarget command extraArgs fullRefresh selected with
  | none =>
    dsimp only
    rw [hwords, List.append_nil]
  | some wanted =>
    have hname := targetNameFullmatch_of_selectedTarget (Option.filter_eq_some_iff.mp hwanted).1
    have hoption : shlexOf "--target".toList = .ok ["--target"] := rfl
    have hboth : shlexOf ("--target".toList ++ ' ' :: wanted.toList) =
        .ok ["--target", wanted] := by
      rw [shlexOf, shlexWords_append hblank (fun _ => ⟨rfl, rfl⟩) hoption, shlexOf_target hname]
      rfl
    dsimp only
    rw [shlexOf, shlexWords_append hblank (fun _ => ⟨rfl, rfl⟩) hwords, hboth]
    rfl

end

/-! ## The words that are put behind -/

section

variable {program : Program κ} {target full : κ} {state next final : CommandLine.State κ}
  {before behind : List (κ × String)} {token : String}

/-- The reading goes on in the same way, with values for more options. -/
structure GoesOn (program : Program κ) (state next : CommandLine.State κ)
    (more : List (κ × String)) : Prop where
  path : next.path = state.path
  readsOptions : readsOptions next = readsOptions state
  complete : complete program next = true
  bound : next.bound = state.bound ++ more

theorem GoesOn.trans (hfirst : GoesOn program state next before)
    (hsecond : GoesOn program next final behind) :
    GoesOn program state final (before ++ behind) where
  path := hsecond.path.trans hfirst.path
  readsOptions := hsecond.readsOptions.trans hfirst.readsOptions
  complete := hsecond.complete
  bound := by rw [hsecond.bound, hfirst.bound, List.append_assoc]

/-- Words that can end have a command, and no option waits for its value. -/
theorem complete_iff : complete program state = true ↔
    (∀ spelling, state.mode ≠ .awaiting spelling) ∧
      ∃ table, program.table state.path = some table ∧ table.isGroup = false := by
  unfold complete
  cases hmode : state.mode with
  | awaiting spelling => simp
  | ready => cases program.table state.path <;> simp
  | eating option => cases program.table state.path <;> simp
  | plain => cases program.table state.path <;> simp

/-- An option is read as one, unless it stands behind `--`. -/
theorem step_of_isOption (hreads : readsOptions state = true)
    (hcomplete : complete program state = true) (hoption : isOption token = true) :
    step program state token = (program.table state.path).bind fun table =>
      (readOption table token).map state.read := by
  have hother : token ≠ "--" := by
    simp only [isOption, Bool.and_eq_true, decide_eq_true_eq] at hoption
    exact hoption.2
  have hdash : startsWith token "-" = true := by
    simp only [isOption, Bool.and_eq_true, decide_eq_true_eq] at hoption
    exact hoption.1.1
  have hfresh : fresh program state token = (program.table state.path).bind fun table =>
      (readOption table token).map state.read := by
    rw [fresh]
    simp only [if_neg hother, if_pos hoption]
  unfold step
  cases hmode : state.mode with
  | ready => exact hfresh
  | awaiting spelling => exact absurd hmode ((complete_iff.mp hcomplete).1 spelling)
  | eating option =>
    dsimp only
    rw [if_pos hdash, hfresh]
  | plain =>
    rw [readsOptions, hmode] at hreads
    cases hreads

/-- Behind `--` every word is an argument. -/
theorem runFrom_of_plain {words : List String} (hreads : readsOptions state = false)
    (hcomplete : complete program state = true) :
    ∃ final, (machine program).runFrom state words = some final ∧ GoesOn program state final [] := by
  obtain ⟨-, table, htable, hgroup⟩ := complete_iff.mp hcomplete
  have hmode : state.mode = .plain := by
    unfold readsOptions at hreads
    split at hreads
    next hmode => exact hmode
    all_goals cases hreads
  induction words generalizing state with
  | nil => exact ⟨state, rfl, rfl, rfl, hcomplete, (List.append_nil _).symm⟩
  | cons word words ih =>
    have hstep : step program state word =
        some { state with arguments := state.arguments ++ [word] } := by
      simp only [step, hmode, htable, Option.bind_some, argument, hgroup, Bool.false_eq_true,
        if_false]
    obtain ⟨final, hrun, hgoes⟩ :=
      @ih { state with arguments := state.arguments ++ [word] } hreads hcomplete htable hmode
    refine ⟨final, ?_, hgoes.path, hgoes.readsOptions, hgoes.complete, hgoes.bound⟩
    have hfirst : (machine program).step state word =
        some { state with arguments := state.arguments ++ [word] } := hstep
    rw [Machine.runFrom, hfirst, Option.bind_some, hrun]

variable (hdbt : DbtOptions program target full)

include hdbt

/-- The flag is one word, which the command has to take. -/
theorem runFrom_flag (hreads : readsOptions state = true)
    (hcomplete : complete program state = true) :
    (TakesFullRefresh program state → ∃ next,
      (machine program).runFrom state ["--full-refresh"] = some next ∧
      GoesOn program state next [(full, "true")]) ∧
    (¬ TakesFullRefresh program state →
      (machine program).runFrom state ["--full-refresh"] = none) := by
  obtain ⟨-, table, htable, hgroup⟩ := complete_iff.mp hcomplete
  have hstep : (machine program).step state "--full-refresh" =
      (readOption table "--full-refresh").map state.read := by
    have hread : step program state "--full-refresh" = _ :=
      step_of_isOption hreads hcomplete rfl
    rw [htable, Option.bind_some] at hread
    exact hread
  have hname : optionName "--full-refresh" = "--full-refresh" ∧
      attachedValue "--full-refresh" = none := option_of_name (by decide)
  apply And.intro
  · intro ⟨own, hown, hlong⟩
    rw [htable] at hown
    cases hown
    obtain ⟨spelling, hspelling⟩ := Option.isSome_iff_exists.mp hlong
    have hflag : spelling = ⟨full, .nothing "true"⟩ := hdbt.isFull htable hspelling
    have hread : readOption table "--full-refresh" = some { flags := [(full, "true")] } := by
      rw [readOption, hname.1, hspelling, hname.2, hflag]
      rfl
    refine ⟨state.read { flags := [(full, "true")] }, ?_, rfl, ?_, ?_, rfl⟩
    · rw [Machine.runFrom, hstep, hread]
      rfl
    · rw [hreads]
      rfl
    · exact complete_iff.mpr ⟨by rintro _ ⟨⟩, table, htable, hgroup⟩
  · intro hnot
    have hlong : table.long "--full-refresh" = none :=
      Option.not_isSome_iff_eq_none.mp fun hlong => hnot ⟨table, htable, hlong⟩
    have hread : readOption table "--full-refresh" = none := by
      rw [readOption, hname.1, hlong]
      rfl
    rw [Machine.runFrom, hstep, hread]
    rfl

/-- The target is two words, which every command takes. -/
theorem runFrom_target (wanted : String) (hreads : readsOptions state = true)
    (hcomplete : complete program state = true) :
    ∃ next, (machine program).runFrom state ["--target", wanted] = some next ∧
      GoesOn program state next [(target, wanted)] := by
  obtain ⟨-, table, htable, hgroup⟩ := complete_iff.mp hcomplete
  obtain ⟨spelling, hspelling⟩ := hdbt.everywhere htable hgroup
  have hown : spelling.option = target := (hdbt.isTarget.long htable hspelling).mpr rfl
  have htakes : spelling.takes = .one :=
    hdbt.isTarget.takes _ _ _ htable (.inl ⟨_, hspelling⟩) hown
  have hname : optionName "--target" = "--target" ∧ attachedValue "--target" = none :=
    option_of_name (by decide)
  have hread : readOption table "--target" = some { last := some (spelling, none) } := by
    have hlong : readLong spelling none = some { last := some (spelling, none) } := by
      unfold readLong
      rw [htakes]
    rw [readOption, hname.1, hspelling, hname.2]
    exact hlong
  have hstep : (machine program).step state "--target" =
      some (state.read { last := some (spelling, none) }) := by
    have hfirst : step program state "--target" = _ := step_of_isOption hreads hcomplete rfl
    rw [htable, Option.bind_some, hread] at hfirst
    exact hfirst
  have hbehind : State.behind spelling = .ready := by
    rw [State.behind, htakes]
    rfl
  have hvalue : (machine program).step (state.read { last := some (spelling, none) }) wanted =
      some { state with mode := .ready, bound := state.bound ++ [(target, wanted)] } := by
    show some _ = some _
    rw [hbehind, hown]
    simp [State.read, State.bind]
  refine ⟨{ state with mode := .ready, bound := state.bound ++ [(target, wanted)] }, ?_, rfl,
    hreads.symm, complete_iff.mpr ⟨by rintro _ ⟨⟩, table, htable, hgroup⟩, rfl⟩
  rw [Machine.runFrom, hstep, Option.bind_some, Machine.runFrom, hvalue]
  rfl

/-- The values that the words behind give. -/
def appendedValues (target full : κ) (adds : Bool) (wanted : Option String) : List (κ × String) :=
  (if adds then [(full, "true")] else []) ++ (wanted.map (target, ·)).toList

/-- What is put behind the words is read, if the command takes the flag. -/
theorem runFrom_appendedWords (adds : Bool) (wanted : Option String)
    (hreads : readsOptions state = true) (hcomplete : complete program state = true) :
    ((adds = true → TakesFullRefresh program state) → ∃ final,
      (machine program).runFrom state (appendedWords adds wanted) = some final ∧
      GoesOn program state final (appendedValues target full adds wanted)) ∧
    (¬ (adds = true → TakesFullRefresh program state) →
      (machine program).runFrom state (appendedWords adds wanted) = none) := by
  have hflag := runFrom_flag hdbt hreads hcomplete
  apply And.intro
  · intro htakes
    have hfirst : ∃ next, (machine program).runFrom state
        (if adds then ["--full-refresh"] else []) = some next ∧
        GoesOn program state next (if adds then [(full, "true")] else []) := by
      cases adds with
      | false => exact ⟨state, rfl, rfl, rfl, hcomplete, (List.append_nil _).symm⟩
      | true => exact hflag.1 (htakes rfl)
    obtain ⟨next, hnext, hgoes⟩ := hfirst
    unfold appendedWords appendedValues
    rw [Machine.runFrom_append, hnext, Option.bind_some]
    cases wanted with
    | none => exact ⟨next, rfl, hgoes.trans ⟨rfl, rfl, hgoes.complete, (List.append_nil _).symm⟩⟩
    | some wanted =>
      obtain ⟨final, hfinal, hlater⟩ :=
        runFrom_target hdbt wanted (hgoes.readsOptions.trans hreads) hgoes.complete
      exact ⟨final, hfinal, hgoes.trans hlater⟩
  · intro hnot
    obtain ⟨hadds, hrefused⟩ := Classical.not_imp.mp hnot
    unfold appendedWords
    rw [hadds, Machine.runFrom_append, if_pos rfl, hflag.2 hrefused, Option.bind_none]

/-- A command that takes the flag has it beside the target. -/
theorem full_ne_target (htakes : TakesFullRefresh program state) : full ≠ target := by
  intro hsame
  obtain ⟨table, htable, hlong⟩ := htakes
  obtain ⟨spelling, hspelling⟩ := Option.isSome_iff_exists.mp hlong
  have hflag : spelling = ⟨full, .nothing "true"⟩ := hdbt.isFull htable hspelling
  have hone := hdbt.isTarget.takes _ _ _ htable (.inl ⟨_, hspelling⟩) (by rw [hflag, hsame])
  rw [hflag] at hone
  cases hone

variable [DecidableEq κ]

/-- The target behind the words is the one that is read. -/
theorem value_of_goesOn {adds : Bool} {wanted : Option String}
    (htakes : adds = true → TakesFullRefresh program state)
    (hgoes : GoesOn program state final (appendedValues target full adds wanted)) :
    final.value target = wanted.or (state.value target) := by
  have hfirst : State.values { state with bound :=
      state.bound ++ if adds then [(full, "true")] else [] } target = state.values target := by
    cases adds with
    | false => rw [if_neg Bool.false_ne_true, List.append_nil]
    | true =>
      have hne := full_ne_target hdbt (htakes rfl)
      simp [State.values, hne]
  unfold State.values at hfirst
  dsimp only at hfirst
  rw [State.value, State.value, State.values, State.values, hgoes.bound, appendedValues,
    ← List.append_assoc, List.filter_append, List.map_append, hfirst]
  cases wanted with
  | none => simp
  | some wanted => simp

/-- The flag behind the words is one more. -/
theorem fullRefreshes_of_goesOn {adds : Bool} {wanted : Option String}
    (htakes : TakesFullRefresh program state)
    (hgoes : GoesOn program state final (appendedValues target full adds wanted)) :
    fullRefreshes full final = fullRefreshes full state + if adds then 1 else 0 := by
  have hne := full_ne_target hdbt htakes
  rw [fullRefreshes, fullRefreshes, hgoes.bound, appendedValues, List.count_append,
    List.count_append]
  cases adds with
  | false => cases wanted <;> simp [hne.symm]
  | true => cases wanted <;> simp [hne.symm]

end

/-! ## The command that dbt reads -/

section

variable [DecidableEq κ] {program : Program κ} {target full : κ} {command extraArgs : Text}
  {fullRefresh : Bool} {selected : Option Text} {typed : List String}
  {typedState : CommandLine.State κ}

/-- What the property says of the reading behind the words. -/
theorem agrees_iff_runFrom (htyped : shlexOf (typedText command extraArgs) = .ok typed)
    (hparse : CommandLine.parse program typed = some typedState) :
    Agrees program target full command extraArgs fullRefresh selected typed typedState ↔
      ∃ final, (machine program).runFrom typedState (appendedWords
          (addsFullRefresh (getDbtCommandName command) extraArgs fullRefresh)
          (wantedTarget command extraArgs fullRefresh selected)) = some final ∧
        complete program final = true ∧
        final.value target = (typedState.value target).or (selectedTarget selected) ∧
        (fullRefresh = true → TakesFullRefresh program typedState →
          fullRefreshes full final = 1) := by
  have hrun := (Option.filter_eq_some_iff.mp hparse).1
  have hwords := shlexOf_buildDbtCommandWithArgs fullRefresh selected htyped
  apply Iff.intro
  · intro ⟨words, final, adds, wanted, hlexed, hread, hvalue, hcount, _⟩
    cases hwords.symm.trans hlexed
    obtain ⟨hfinal, hcomplete⟩ := Option.filter_eq_some_iff.mp hread
    rw [Machine.runFrom_append, hrun, Option.bind_some] at hfinal
    exact ⟨final, hfinal, hcomplete, hvalue, hcount⟩
  · intro ⟨final, hfinal, hcomplete, hvalue, hcount⟩
    refine ⟨_, final, _, _, hwords, ?_, hvalue, hcount, rfl⟩
    rw [CommandLine.parse, Machine.runFrom_append, hrun, Option.bind_some, hfinal]
    exact Option.filter_eq_some_iff.mpr ⟨rfl, hcomplete⟩

/-- The target that is read behind the words is the one that is asked for. -/
theorem tellsTarget_iff {value : Option String}
    (hvalue : value = if readsOptions typedState = true then
      (wantedTarget command extraArgs fullRefresh selected).or (typedState.value target)
      else typedState.value target) :
    value = (typedState.value target).or (selectedTarget selected) ↔
      ∀ wanted, selectedTarget selected = some wanted →
        TellsTarget target command extraArgs fullRefresh wanted typedState := by
  rw [hvalue, wantedTarget]
  unfold TellsTarget
  cases hselected : selectedTarget selected with
  | none => simp
  | some wanted =>
    simp only [Option.some.injEq, forall_eq', Option.filter_some]
    cases readsOptions typedState with
    | false => cases typedState.value target <;> simp
    | true =>
      cases addsTarget command extraArgs fullRefresh with
      | false => cases typedState.value target <;> simp
      | true => cases typedState.value target <;> simp [eq_comm]

/-- Where what is put behind the words is read, its values decide. -/
theorem agrees_of_final {final : CommandLine.State κ}
    (htyped : shlexOf (typedText command extraArgs) = .ok typed)
    (hparse : CommandLine.parse program typed = some typedState)
    (hrun : (machine program).runFrom typedState (appendedWords
      (addsFullRefresh (getDbtCommandName command) extraArgs fullRefresh)
      (wantedTarget command extraArgs fullRefresh selected)) = some final)
    (hcomplete : complete program final = true) :
    Agrees program target full command extraArgs fullRefresh selected typed typedState ↔
      final.value target = (typedState.value target).or (selectedTarget selected) ∧
        (fullRefresh = true → TakesFullRefresh program typedState →
          fullRefreshes full final = 1) := by
  rw [agrees_iff_runFrom htyped hparse]
  apply Iff.intro
  · intro ⟨other, hother, _, hvalue, hcount⟩
    cases hrun.symm.trans hother
    exact ⟨hvalue, hcount⟩
  · intro ⟨hvalue, hcount⟩
    exact ⟨final, hrun, hcomplete, hvalue, hcount⟩

/-- **The selected target is the one dbt runs against**, with one full refresh where it is asked
for, if and only if the patterns find in the text what dbt finds in the words. -/
theorem agrees_iff_tells (hdbt : DbtOptions program target full)
    (htyped : shlexOf (typedText command extraArgs) = .ok typed)
    (hparse : CommandLine.parse program typed = some typedState) :
    Agrees program target full command extraArgs fullRefresh selected typed typedState ↔
      TellsFullRefresh program full command extraArgs fullRefresh typedState ∧
        ∀ wanted, selectedTarget selected = some wanted →
          TellsTarget target command extraArgs fullRefresh wanted typedState := by
  have hcomplete : complete program typedState = true := (Option.filter_eq_some_iff.mp hparse).2
  unfold TellsFullRefresh
  dsimp only
  cases hreads : readsOptions typedState with
  | false =>
    obtain ⟨final, hrun, hgoes⟩ := runFrom_of_plain hreads hcomplete
    have hbound : final.bound = typedState.bound := hgoes.bound.trans (List.append_nil _)
    have hcount : fullRefreshes full final = fullRefreshes full typedState := by
      rw [fullRefreshes, hbound, fullRefreshes]
    have hvalue : final.value target = if readsOptions typedState = true then
        (wantedTarget command extraArgs fullRefresh selected).or (typedState.value target)
        else typedState.value target := by
      rw [hreads, if_neg Bool.false_ne_true]
      exact value_congr hbound
    rw [agrees_of_final htyped hparse hrun hgoes.complete, tellsTarget_iff hvalue, hcount,
      and_comm]
    simp
  | true =>
    have hruns := runFrom_appendedWords hdbt
      (addsFullRefresh (getDbtCommandName command) extraArgs fullRefresh)
      (wantedTarget command extraArgs fullRefresh selected) hreads hcomplete
    by_cases htakes : addsFullRefresh (getDbtCommandName command) extraArgs fullRefresh = true →
        TakesFullRefresh program typedState
    · obtain ⟨final, hrun, hgoes⟩ := hruns.1 htakes
      have hvalue : final.value target = if readsOptions typedState = true then
          (wantedTarget command extraArgs fullRefresh selected).or (typedState.value target)
          else typedState.value target := by
        rw [hreads, if_pos rfl]
        exact value_of_goesOn hdbt htakes hgoes
      have hcount : (fullRefresh = true → TakesFullRefresh program typedState →
          fullRefreshes full final = 1) ↔
          (fullRefresh = true → TakesFullRefresh program typedState →
            fullRefreshes full typedState = if addsFullRefresh (getDbtCommandName command)
              extraArgs fullRefresh = true ∧ true = true then 0 else 1) := by
        apply forall_congr'
        intro _
        apply forall_congr'
        intro hflag
        rw [fullRefreshes_of_goesOn hdbt hflag hgoes]
        cases addsFullRefresh (getDbtCommandName command) extraArgs fullRefresh with
        | false => simp
        | true => simp
      rw [agrees_of_final htyped hparse hrun hgoes.complete, tellsTarget_iff hvalue, hcount,
        and_comm]
      exact ⟨fun h => ⟨⟨fun hadds _ => htakes hadds, h.1⟩, h.2⟩, fun h => ⟨h.1.2, h.2⟩⟩
    · rw [agrees_iff_runFrom htyped hparse]
      apply iff_of_false
      · intro ⟨final, hrun, _⟩
        rw [hruns.2 htakes] at hrun
        cases hrun
      · intro htells
        exact htakes fun hadds => htells.1.1 hadds rfl

end

/-! ## Concrete commands -/

theorem fullRefresh_sampleTable {spelling : Spelling String}
    (hlong : sampleTable.long "--full-refresh" = some spelling) :
    spelling = ⟨"full_refresh", .nothing "true"⟩ := by
  have hsame : sampleTable.long "--full-refresh" = some ⟨"full_refresh", .nothing "true"⟩ := rfl
  exact Option.some.inj (hlong.symm.trans hsame)

theorem dbtOptions_sampleProgram : DbtOptions sampleProgram "target" "full_refresh" where
  isTarget := targetOption_sampleProgram
  everywhere htable hgroup := by
    rcases table_sampleProgram htable with rfl | rfl
    · cases hgroup
    · exact ⟨⟨"target", .one⟩, rfl⟩
  isFull htable hlong := by
    rcases table_sampleProgram htable with rfl | rfl
    · cases hlong
    · exact fullRefresh_sampleTable hlong

/-- A value with a blank in it, and neither flag. -/
theorem agrees_of_quoted_vars : ∃ typed typedState,
    shlexOf (typedText "build".toList " --vars '\x7b\"t\": 1\x7d'".toList) = .ok typed ∧
    CommandLine.parse sampleProgram typed = some typedState ∧
    Agrees sampleProgram "target" "full_refresh" "build".toList
      " --vars '\x7b\"t\": 1\x7d'".toList true (some "prod ".toList) typed typedState := by
  obtain ⟨typedState, hparse, hpath, hreads, hcount, hvalue⟩ : ∃ typedState,
      CommandLine.parse sampleProgram ["build", "--vars", "\x7b\"t\": 1\x7d"] = some typedState ∧
      typedState.path = ["build"] ∧ readsOptions typedState = true ∧
      fullRefreshes "full_refresh" typedState = 0 ∧ typedState.value "target" = none :=
    ⟨_, rfl, rfl, rfl, rfl, rfl⟩
  have htyped : shlexOf (typedText "build".toList " --vars '\x7b\"t\": 1\x7d'".toList) =
      .ok ["build", "--vars", "\x7b\"t\": 1\x7d"] := rfl
  refine ⟨_, typedState, htyped, hparse,
    (agrees_iff_tells dbtOptions_sampleProgram htyped hparse).mpr ⟨⟨?_, ?_⟩, ?_⟩⟩
  · intro _ _
    exact ⟨sampleTable, by rw [hpath]; rfl, rfl⟩
  · intro _ _
    rw [hcount, if_pos ⟨by decide, hreads⟩]
  · intro wanted _
    unfold TellsTarget
    rw [if_pos ⟨by decide, hreads⟩, hvalue]
    exact nofun

/-- The target is attached to its flag: the selected one is put behind it. -/
theorem not_agrees_of_attached : ¬ ∀ (program : Program String) (target full : String)
    (command extraArgs : Text) (fullRefresh : Bool) (selected : Option Text)
    (typed : List String) (typedState : CommandLine.State String),
    DbtOptions program target full → shlexOf (typedText command extraArgs) = .ok typed →
    CommandLine.parse program typed = some typedState →
    Agrees program target full command extraArgs fullRefresh selected typed typedState := by
  intro hclaim
  obtain ⟨words, final, -, -, hwords, hread, hvalue, -⟩ := hclaim sampleProgram "target"
    "full_refresh" "build -tstg".toList [] false (some "prod".toList) ["build", "-tstg"] _
    dbtOptions_sampleProgram rfl rfl
  have hsent : shlexOf (buildDbtCommandWithArgs "build -tstg".toList [] false
      (some "prod".toList)) = .ok ["build", "-tstg", "--target", "prod"] := rfl
  cases hsent.symm.trans hwords
  obtain ⟨other, hother, hprod⟩ : ∃ other, CommandLine.parse sampleProgram
      ["build", "-tstg", "--target", "prod"] = some other ∧
      other.value "target" = some "prod" := ⟨_, rfl, rfl⟩
  cases hother.symm.trans hread
  rw [hprod] at hvalue
  exact absurd hvalue (by decide)

end DbtCraft.Web.CommandArgs

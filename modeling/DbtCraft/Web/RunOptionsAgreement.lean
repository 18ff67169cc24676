/-
# Run options of the editor and of the runner

The runner does with the options of the editor what the editor shows of them, if and only
if a condition on the options, the command and the project holds.
-/

import DbtCraft.Services.Launch
import DbtCraft.Web.RunOptionsRequest

namespace DbtCraft.Web.RunOptionsAgreement

open DbtCraft.Python DbtCraft.Web.RunOptions DbtCraft.Web.RunOptionsRequest
open DbtCraft.Server.AiProviders (trim)
open DbtCraft.Services.DbtArgv (SelectorsYml appendRunOptions hasFlag supported validateDbtArgv)
open DbtCraft.Services.OptionTokens
open DbtCraft.Services.State (DbtCommand StateService Workspace resolveRequestState)

section

variable (engine : Engine) (options : RunOptionsState) (command : String) (argv : List String)

/-- The runner refuses an option for the subcommand of an argv. -/
def Refused (field : String) (commands : List String) : Prop :=
  ∃ raised, supported argv field commands true = .error raised

/-- The state options that are set, in the request and for the runner. -/
def StateKept : Prop :=
  let payload := buildRunOptionsPayload engine options command
  let target := (options.stateTarget.map trim).filter (· ≠ "")
  (payload.stateTarget = target ∧ payload.defer = options.defer ∧
      payload.favorState = options.favorState) ∨
    ∀ (service : StateService) (request : DbtCommand) (name : String) (workspace : Workspace)
      (resolved : Option String), request.stateTarget = target → request.defer = options.defer →
        request.favorState = options.favorState →
          ∃ raised, resolveRequestState service request name workspace resolved = .error raised

/-- No option that is set is missing in the request, if the runner has it for the
command. -/
structure Kept : Prop where
  vars : ∀ item ∈ setVariables engine options,
    ∃ vars, (buildRunOptionsPayload engine options command).vars = some vars ∧ item ∈ vars
  empty : options.empty = true →
    (buildRunOptionsPayload engine options command).empty = true ∨
      Refused argv "empty" Services.DbtArgv.emptyCommands
  sample : ∀ window, validateSample options.sample = .ok (some window) →
    (buildRunOptionsPayload engine options command).sample = some window.normalized ∨
      Refused argv "sample" Services.DbtArgv.sampleCommands
  eventTimes : ∀ start finish,
    validateEventTime engine options.eventTimeStart options.eventTimeEnd =
        .ok (some (start, finish)) →
      (buildRunOptionsPayload engine options command).eventTimeStart = some start ∧
          (buildRunOptionsPayload engine options command).eventTimeEnd = some finish ∨
        Refused argv "event_time_start/event_time_end" Services.DbtArgv.eventTimeCommands
  fullRefresh : options.fullRefresh = true →
    (buildRunOptionsPayload engine options command).fullRefresh = true ∨
      Refused argv "full_refresh" Services.DbtArgv.fullRefreshCommands
  selector : isGiven options.selectorName = true →
    (buildRunOptionsPayload engine options command).selectorName =
        some (trim (options.selectorName.getD "")) ∨
      Refused argv "selector_name" Services.DbtArgv.selectorCommands
  state : StateKept engine options command

/-- The runner takes the request, and gives every option to dbt as the editor shows it. -/
structure Agrees (selectorsYml : SelectorsYml) : Prop where
  kept : Kept engine options command argv
  accepted : ∃ request, receive (buildRunOptionsPayload engine options command) = some request ∧
    appendRunOptions argv request (some selectorsYml) =
      .ok (argv ++ (shownTokens engine options command argv).all)

end

/-! ## The condition -/

/-- A time that `strftime` and `click.DateTime` lose nothing of: whole seconds, in a year of
four digits. -/
structure WholeTime (time : ℤ) : Prop where
  first : 0 ≤ wallOf time
  last : wallOf time < Datetime.limit
  seconds : time % 1000 = 0
  year : 1000 ≤ yearOf time

section

variable (engine : Engine) (options : RunOptionsState) (command : String) (argv : List String)

/-- The tables of both have the command, or neither has. -/
def SameTable (shown commands : List String) : Prop := offers command shown = takes argv commands

instance (shown commands : List String) : Decidable (SameTable command argv shown commands) :=
  inferInstanceAs (Decidable (_ = _))

/-- What the options, the command and the project have to be like. -/
structure Careful (selectorsYml : SelectorsYml) : Prop where
  distinct : Distinct engine options
  vars : enteredVars engine options ≠ [] → hasFlag argv "--vars" = false ∧
    (varsText (enteredVars engine options)).utf8ByteSize ≤ Services.DbtArgv.maxVarsBytes
  empty : options.empty = true →
    SameTable command argv emptyCommands Services.DbtArgv.emptyCommands ∧
      (offers command emptyCommands = true → hasFlag argv "--empty" = false)
  sample : isGiven options.sample = true →
    SameTable command argv sampleCommands Services.DbtArgv.sampleCommands ∧
      (offers command sampleCommands = true → hasFlag argv "--sample" = false)
  eventTimes : ∀ start finish,
    validateEventTime engine options.eventTimeStart options.eventTimeEnd =
        .ok (some (start, finish)) →
      SameTable command argv eventTimeCommands Services.DbtArgv.eventTimeCommands ∧
        (offers command eventTimeCommands = true →
          hasFlag argv "--event-time-start" = false ∧ hasFlag argv "--event-time-end" = false ∧
            WholeTime start ∧ WholeTime finish)
  fullRefresh : options.fullRefresh = true →
    SameTable command argv fullRefreshCommands Services.DbtArgv.fullRefreshCommands ∧
      (offers command fullRefreshCommands = true → hasFlag argv "--full-refresh" = true →
        "--full-refresh" ∈ argv.drop 2)
  selector : isGiven options.selectorName = true →
    SameTable command argv selectorCommands Services.DbtArgv.selectorCommands ∧
      (offers command selectorCommands = true →
        hasFlag argv "--select" = false ∧ hasFlag argv "-s" = false ∧
          hasFlag argv "--selector" = false ∧
            DefinesSelector (some selectorsYml) (trim (options.selectorName.getD "")))

end

variable {engine : Engine} {options : RunOptionsState} {command : String} {argv : List String}
  {selectorsYml : SelectorsYml} {tokens commands : List String} {field : String}

/-! ## One option -/

theorem refused_iff : Refused argv field commands ↔ takes argv commands = false := by
  rw [Refused, supported, if_neg (by decide), takes, Bool.or_eq_false_iff, decide_eq_false_iff_not,
    decide_eq_false_iff_not, ← not_or]
  split
  next htakes =>
    refine iff_of_false (fun hrefused => ?_) (not_not.mpr htakes)
    obtain ⟨raised, hraised⟩ := hrefused
    cases hraised
  next hnone => exact iff_of_true ⟨_, rfl⟩ hnone

/-- An option that is sent where it is offered is kept and accepted exactly if it is offered
where it is taken. -/
theorem sent_iff {isSet offered taken : Bool} {rest : Prop} :
    ((isSet = true → (isSet && offered) = true ∨ taken = false) ∧
        ((isSet && offered) = true → taken = true ∧ rest)) ↔
      (isSet = true → offered = taken ∧ (offered = true → rest)) := by
  cases isSet <;> cases offered <;> cases taken <;> simp

section

variable {first last : Option Datetime}

theorem varsText_eq (vars : Dict String Json) :
    jsonDumps (.dict (Json.readMembers vars)) = .ok (varsText vars) := by
  obtain ⟨text, htext⟩ := Json.exists_jsonDumps (.object vars)
  rw [Json.read] at htext
  rw [varsText, htext]

theorem varsTokens_iff (hvalid : Validated engine options)
    (htakes : takes argv Services.DbtArgv.varsCommands = true) :
    VarsTokens argv (fields (buildRunOptionsPayload engine options command) first last) tokens ↔
      (enteredVars engine options ≠ [] → hasFlag argv "--vars" = false ∧
        (varsText (enteredVars engine options)).utf8ByteSize ≤ Services.DbtArgv.maxVarsBytes) ∧
      tokens = (shownTokens engine options command argv).vars := by
  have hvars : (buildRunOptionsPayload engine options command).vars =
    payloadVars engine options := rfl
  rw [VarsTokens, shownTokens, fields, hvars, payloadVars_eq hvalid]
  cases hentered : enteredVars engine options with
  | nil =>
    have hnone : (some ([] : Dict String Json)).filter (!·.isEmpty) = none := rfl
    simp only [hnone, Option.map_none, ne_eq, not_true, false_implies, true_and]
  | cons item rest =>
    have hsize : (∃ text, Services.DbtArgv.serializeJsonArg (Json.readMembers (item :: rest)) "vars"
          Services.DbtArgv.maxVarsBytes = .ok text ∧ tokens = ["--vars", text]) ↔
        (varsText (item :: rest)).utf8ByteSize ≤ Services.DbtArgv.maxVarsBytes ∧
          tokens = ["--vars", varsText (item :: rest)] := by
      rw [Services.DbtArgv.serializeJsonArg, varsText_eq]
      dsimp only
      split
      next hbig => simp [Nat.not_le_of_lt hbig]
      next hsmall => simp [Nat.le_of_not_lt hsmall, eq_comm]
    have hitem : (Json.readMembers (item :: rest)).isEmpty = false := rfl
    simp only [Option.filter_some, List.isEmpty_cons, Bool.not_false, if_true, Option.map_some,
      hitem, Bool.false_eq_true, if_false, htakes, true_and, hsize, ne_eq, reduceCtorEq,
      not_false_eq_true, forall_const, and_assoc]

theorem emptyTokens_iff :
    EmptyTokens argv (fields (buildRunOptionsPayload engine options command) first last) tokens ↔
      ((options.empty && offers command emptyCommands) = true →
        takes argv Services.DbtArgv.emptyCommands = true ∧ hasFlag argv "--empty" = false) ∧
      tokens = (shownTokens engine options command argv).empty := by
  simp only [EmptyTokens, shownTokens, fields, buildRunOptionsPayload]
  by_cases hsent : (options.empty && offers command emptyCommands) = true
  · simp only [hsent, forall_const, and_assoc, if_true]
  · simp only [hsent, false_implies, true_and, if_false, Bool.false_eq_true]

theorem formed_of_payloadWindow {window : SampleWindow}
    (hwindow : payloadWindow options command = some window) : Formed window := by
  rw [payloadWindow] at hwindow
  split at hwindow
  · rcases validateSample_eq_ok (valid_eq_some.mp hwindow) with ⟨-, hnone⟩ | ⟨-, found, hsome, hformed⟩
    · cases hnone
    · cases hsome
      exact hformed
  · cases hwindow

theorem sampleTokens_iff :
    SampleTokens argv (fields (buildRunOptionsPayload engine options command) first last) tokens ↔
      ((payloadWindow options command).isSome = true →
        takes argv Services.DbtArgv.sampleCommands = true ∧ hasFlag argv "--sample" = false) ∧
      tokens = (shownTokens engine options command argv).sample := by
  have hsample : (fields (buildRunOptionsPayload engine options command) first last).sample =
    (payloadWindow options command).map SampleWindow.normalized := rfl
  rw [SampleTokens, shownTokens, hsample]
  cases hwindow : payloadWindow options command with
  | none => simp only [Option.map_none, Option.getD_none, if_true, Option.isSome_none,
      Bool.false_eq_true, false_implies, true_and]
  | some window =>
    have hformed := formed_of_payloadWindow hwindow
    have hne : window.normalized ≠ "" := by
      intro hempty
      have hlength := (length_normalized hformed).1
      rw [hempty] at hlength
      cases hlength
    simp only [Option.map_some, Option.getD_some, hne, if_false, sampleParts_normalized hformed,
      Option.some.injEq, Prod.mk.injEq, Option.isSome_some, forall_const, and_assoc]
    apply Iff.intro
    · rintro ⟨htakes, hflag, _, _, hcount, hgrain, htokens⟩
      subst hcount hgrain
      exact ⟨htakes, hflag, htokens⟩
    · rintro ⟨htakes, hflag, htokens⟩
      exact ⟨htakes, hflag, _, _, rfl, rfl, htokens⟩

theorem fullRefreshTokens_iff :
    FullRefreshTokens argv (fields (buildRunOptionsPayload engine options command) first last)
        tokens ↔
      ((options.fullRefresh && offers command fullRefreshCommands) = true →
        takes argv Services.DbtArgv.fullRefreshCommands = true) ∧
      tokens = if (options.fullRefresh && offers command fullRefreshCommands) = true ∧
        hasFlag argv "--full-refresh" = false then ["--full-refresh"] else [] := by
  simp only [FullRefreshTokens, fields, buildRunOptionsPayload]
  by_cases hsent : (options.fullRefresh && offers command fullRefreshCommands) = true
  · simp only [hsent, forall_const, if_true, true_and]
    cases hasFlag argv "--full-refresh" <;> simp
  · simp only [hsent, false_implies, true_and, if_false, false_and, Bool.false_eq_true]

/-- The name that is sent; one that is not given is empty. -/
theorem selectorName_getD :
    (buildRunOptionsPayload engine options command).selectorName.getD "" =
      if (isGiven options.selectorName && offers command selectorCommands) = true then
        trim (options.selectorName.getD "")
      else "" := by
  rw [buildRunOptionsPayload]
  cases htext : options.selectorName with
  | none => simp [isNonempty, isGiven, trim_empty]
  | some text =>
    by_cases hgiven : trim text = ""
    · simp only [isGiven, Option.getD_some, hgiven, Option.map_some]
      split <;> simp
    · have hne : text ≠ "" := fun hempty => hgiven (by rw [hempty, trim_empty])
      simp only [isGiven, isNonempty, Option.getD_some, hgiven, hne, Option.map_some, ne_eq,
        not_false_eq_true, decide_true, Bool.true_and]
      split <;> rfl

theorem isSelectorName_of_given (hvalid : Validated engine options)
    (hgiven : isGiven options.selectorName = true) :
    Services.DbtArgv.isSelectorName (trim (options.selectorName.getD "")) = true := by
  have hselector := hvalid.selector
  rw [validateSelectorName, if_neg (by rw [hgiven]; decide)] at hselector
  split at hselector
  · assumption
  · cases hselector

/-- A selector that is sent is a name, or empty. -/
theorem selectorTokens_iff (hvalid : Validated engine options) :
    SelectorTokens argv (fields (buildRunOptionsPayload engine options command) first last)
        (some selectorsYml) tokens ↔
      ((isGiven options.selectorName && offers command selectorCommands) = true →
        takes argv Services.DbtArgv.selectorCommands = true ∧ hasFlag argv "--select" = false ∧
          hasFlag argv "-s" = false ∧ hasFlag argv "--selector" = false ∧
            DefinesSelector (some selectorsYml) (trim (options.selectorName.getD ""))) ∧
      tokens = (shownTokens engine options command argv).selector := by
  have hname : (fields (buildRunOptionsPayload engine options command) first last).selectorName =
    (buildRunOptionsPayload engine options command).selectorName := rfl
  rw [SelectorTokens, shownTokens, hname, selectorName_getD]
  by_cases hsent : (isGiven options.selectorName && offers command selectorCommands) = true
  · have hgiven := (Bool.and_eq_true_iff.mp hsent).1
    have hne : trim (options.selectorName.getD "") ≠ "" := of_decide_eq_true hgiven
    simp only [hsent, if_true, hne, if_false, isSelectorName_of_given hvalid hgiven, true_and,
      forall_const, and_assoc]
  · simp only [hsent, if_false, if_true, false_implies, true_and, Bool.false_eq_true]

/-- What the runner writes of the event times. -/
def writtenEventTimes : Option (ℤ × ℤ) → List String
  | some (start, finish) => ["--event-time-start", Datetime.strftime (wallOf start).toNat,
      "--event-time-end", Datetime.strftime (wallOf finish).toNat]
  | none => []

theorem receiveOptional_some {time : ℤ} (hread : receiveOptional (some time) = some first) :
    (0 ≤ wallOf time ∧ wallOf time < Datetime.limit) ∧ first = some ⟨wallOf time, some 0⟩ := by
  obtain ⟨value, hvalue, rfl⟩ := Option.map_eq_some_iff.mp hread
  obtain ⟨hrange, hsame⟩ := Option.ite_none_right_eq_some.mp hvalue
  exact ⟨hrange, congrArg some (Option.some_inj.mp hsame).symm⟩

theorem eventTime_eq_ok {time : ℤ} (hrange : 0 ≤ wallOf time ∧ wallOf time < Datetime.limit) :
    Services.DbtArgv.eventTime ⟨wallOf time, some 0⟩ = .ok (wallOf time).toNat := by
  have hzero : wallOf time - 0 = wallOf time := Int.sub_zero _
  rw [Services.DbtArgv.eventTime, Datetime.toNaiveUtc]
  dsimp only
  rw [hzero, if_pos hrange]
  rfl

theorem eventTimeTokens_iff
    (hfirst : receiveOptional (buildRunOptionsPayload engine options command).eventTimeStart =
      some first)
    (hlast : receiveOptional (buildRunOptionsPayload engine options command).eventTimeEnd =
      some last) :
    EventTimeTokens argv (fields (buildRunOptionsPayload engine options command) first last)
        tokens ↔
      ((payloadEventTimes engine options command).isSome = true →
        takes argv Services.DbtArgv.eventTimeCommands = true ∧
          hasFlag argv "--event-time-start" = false ∧ hasFlag argv "--event-time-end" = false) ∧
      tokens = writtenEventTimes (payloadEventTimes engine options command) := by
  have hstart : (fields (buildRunOptionsPayload engine options command) first last).eventTimeStart =
    first := rfl
  have hend : (fields (buildRunOptionsPayload engine options command) first last).eventTimeEnd =
    last := rfl
  rw [EventTimeTokens, hstart, hend]
  simp only [buildRunOptionsPayload] at hfirst hlast
  cases htimes : payloadEventTimes engine options command with
  | none =>
    rw [htimes] at hfirst hlast
    cases hfirst
    cases hlast
    simp only [Option.isSome_none, Bool.false_eq_true, false_implies, true_and, writtenEventTimes]
  | some times =>
    rw [htimes] at hfirst hlast
    obtain ⟨hrangeStart, rfl⟩ := receiveOptional_some hfirst
    obtain ⟨hrangeEnd, rfl⟩ := receiveOptional_some hlast
    have horder : times.1 < times.2 := by
      rw [payloadEventTimes] at htimes
      split at htimes
      · rcases validateEventTime_eq_ok (valid_eq_some.mp htimes) with
          ⟨-, -, hnone⟩ | ⟨-, -, start, finish, hsome, horder⟩
        · cases hnone
        · cases hsome
          exact horder
      · cases htimes
    have hlt : (wallOf times.1).toNat < (wallOf times.2).toNat := by
      have hone := hrangeStart.1
      simp only [wallOf] at hone ⊢
      omega
    simp only [eventTime_eq_ok hrangeStart, eventTime_eq_ok hrangeEnd, Except.ok.injEq,
      Option.isSome_some, forall_const, and_assoc, writtenEventTimes]
    apply Iff.intro
    · rintro ⟨htakes, hflagStart, hflagEnd, _, _, hone, htwo, _, htokens⟩
      subst hone htwo
      exact ⟨htakes, hflagStart, hflagEnd, htokens⟩
    · rintro ⟨htakes, hflagStart, hflagEnd, htokens⟩
      exact ⟨htakes, hflagStart, hflagEnd, _, _, rfl, rfl, hlt, htokens⟩

/-- The runner writes the event times that are shown if it loses nothing of them. -/
theorem writtenEventTimes_eq_iff :
    writtenEventTimes (payloadEventTimes engine options command) =
        (shownTokens engine options command argv).eventTimes ↔
      ∀ start finish, payloadEventTimes engine options command = some (start, finish) →
        (start % 1000 = 0 ∧ 1000 ≤ yearOf start) ∧ finish % 1000 = 0 ∧ 1000 ≤ yearOf finish := by
  rw [shownTokens]
  cases htimes : payloadEventTimes engine options command with
  | none => exact iff_of_true rfl nofun
  | some times =>
    simp only [writtenEventTimes, List.cons.injEq, true_and, and_true, strftime_eq_iff,
      Option.some.injEq]
    apply Iff.intro
    · intro hwhole start finish hsame
      subst hsame
      exact hwhole
    · intro hwhole
      exact hwhole times.1 times.2 rfl

theorem length_writtenEventTimes :
    (writtenEventTimes (payloadEventTimes engine options command)).length =
      (shownTokens engine options command argv).eventTimes.length := by
  rw [shownTokens]
  cases payloadEventTimes engine options command with
  | none => rfl
  | some times => simp only [writtenEventTimes, List.length_cons]

/-- The flag of a full refresh is put where the command does not have it. -/
theorem fullRefresh_eq_iff {isSet : Bool} :
    ((if isSet = true ∧ hasFlag argv "--full-refresh" = false then ["--full-refresh"] else []) =
        if isSet = true ∧ "--full-refresh" ∉ argv.drop 2 then ["--full-refresh"] else []) ↔
      (isSet = true → hasFlag argv "--full-refresh" = true → "--full-refresh" ∈ argv.drop 2) := by
  have hflag : "--full-refresh" ∈ argv.drop 2 → hasFlag argv "--full-refresh" = true := by
    intro hmem
    have hself : Services.DbtArgv.isFlag "--full-refresh" "--full-refresh" = true := by
      rw [Services.DbtArgv.isFlag, decide_eq_true rfl, Bool.true_or]
    exact List.any_eq_true.mpr ⟨_, hmem, hself⟩
  by_cases hmem : "--full-refresh" ∈ argv.drop 2
  · simp [hmem, hflag hmem]
  · cases hasFlag argv "--full-refresh" <;> cases isSet <;> simp [hmem]

/-! ## All options -/

/-- The tokens that are emitted are those that are shown, where those of the event times and of
a full refresh are. -/
theorem all_eq_iff {found shown : Tokens} (hvars : found.vars = shown.vars)
    (hempty : found.empty = shown.empty) (hsample : found.sample = shown.sample)
    (hlength : found.eventTimes.length = shown.eventTimes.length)
    (hselector : found.selector = shown.selector) :
    shown.all = found.all ↔
      found.eventTimes = shown.eventTimes ∧ found.fullRefresh = shown.fullRefresh := by
  rw [Tokens.all, Tokens.all, hvars, hempty, hsample, hselector]
  apply Iff.intro
  · intro hall
    have hrest := List.append_cancel_left (List.append_cancel_left (List.append_cancel_left hall))
    obtain ⟨htimes, hlast⟩ := List.append_inj hrest hlength.symm
    exact ⟨htimes.symm, (List.append_cancel_right hlast).symm⟩
  · rintro ⟨htimes, hfull⟩
    rw [htimes, hfull]

/-- What the runner asks of the options that are sent. -/
structure Accepted (engine : Engine) (options : RunOptionsState) (command : String)
    (argv : List String) (selectorsYml : SelectorsYml) : Prop where
  vars : enteredVars engine options ≠ [] → hasFlag argv "--vars" = false ∧
    (varsText (enteredVars engine options)).utf8ByteSize ≤ Services.DbtArgv.maxVarsBytes
  empty : (options.empty && offers command emptyCommands) = true →
    takes argv Services.DbtArgv.emptyCommands = true ∧ hasFlag argv "--empty" = false
  sample : (payloadWindow options command).isSome = true →
    takes argv Services.DbtArgv.sampleCommands = true ∧ hasFlag argv "--sample" = false
  eventTimes : ∀ start finish, payloadEventTimes engine options command = some (start, finish) →
    takes argv Services.DbtArgv.eventTimeCommands = true ∧
      hasFlag argv "--event-time-start" = false ∧ hasFlag argv "--event-time-end" = false ∧
        WholeTime start ∧ WholeTime finish
  fullRefresh : (options.fullRefresh && offers command fullRefreshCommands) = true →
    takes argv Services.DbtArgv.fullRefreshCommands = true ∧
      (hasFlag argv "--full-refresh" = true → "--full-refresh" ∈ argv.drop 2)
  selector : (isGiven options.selectorName && offers command selectorCommands) = true →
    takes argv Services.DbtArgv.selectorCommands = true ∧ hasFlag argv "--select" = false ∧
      hasFlag argv "-s" = false ∧ hasFlag argv "--selector" = false ∧
        DefinesSelector (some selectorsYml) (trim (options.selectorName.getD ""))

theorem length_of_isSelectorName {text : String}
    (hname : Services.DbtArgv.isSelectorName text = true) : text.length ≤ 128 := by
  rw [← String.length_toList]
  simp only [Services.DbtArgv.isSelectorName] at hname
  split at hname
  · cases hname
  next hlist =>
    simp only [Bool.and_eq_true, decide_eq_true_eq] at hname
    rw [hlist]
    exact Nat.succ_le_succ hname.1.2

/-- The texts of a valid request are short enough. -/
theorem receive_eq_some (hvalid : Validated engine options) {request} :
    receive (buildRunOptionsPayload engine options command) = some request ↔
      ∃ first last,
        receiveOptional (buildRunOptionsPayload engine options command).eventTimeStart =
          some first ∧
        receiveOptional (buildRunOptionsPayload engine options command).eventTimeEnd = some last ∧
        request = fields (buildRunOptionsPayload engine options command) first last := by
  have hsample : ((buildRunOptionsPayload engine options command).sample.getD "").length ≤ 32 := by
    rw [buildRunOptionsPayload]
    cases hwindow : payloadWindow options command with
    | none => exact Nat.zero_le _
    | some window => exact (length_normalized (formed_of_payloadWindow hwindow)).2
  have hselector :
      ((buildRunOptionsPayload engine options command).selectorName.getD "").length ≤ 128 := by
    rw [selectorName_getD]
    split
    next hsent =>
      exact length_of_isSelectorName
        (isSelectorName_of_given hvalid (Bool.and_eq_true_iff.mp hsent).1)
    · exact Nat.zero_le _
  rw [receive]
  simp only [Option.bind_eq_bind, Option.bind_eq_some_iff, hsample, hselector, and_self, if_true,
    Option.some.injEq, exists_and_left]
  apply Iff.intro
  · intro ⟨first, hfirst, last, hlast, hrequest⟩
    exact ⟨first, hfirst, last, hlast, hrequest.symm⟩
  · intro ⟨first, hfirst, last, hlast, hrequest⟩
    exact ⟨first, hfirst, last, hlast, hrequest.symm⟩

theorem accepted_iff (hvalid : Validated engine options) (hlength : 2 ≤ argv.length)
    (htakes : takes argv Services.DbtArgv.varsCommands = true) :
    (∃ request, receive (buildRunOptionsPayload engine options command) = some request ∧
      appendRunOptions argv request (some selectorsYml) =
        .ok (argv ++ (shownTokens engine options command argv).all)) ↔
      Accepted engine options command argv selectorsYml := by
  apply Iff.intro
  · intro ⟨request, hreceive, happend⟩
    obtain ⟨first, last, hfirst, hlast, rfl⟩ := (receive_eq_some hvalid).mp hreceive
    obtain ⟨found, hfound, hout⟩ := (appendRunOptions_eq_ok hlength).mp happend
    obtain ⟨hvars, hvarsTokens⟩ := (varsTokens_iff hvalid htakes).mp hfound.vars
    obtain ⟨hempty, hemptyTokens⟩ := emptyTokens_iff.mp hfound.empty
    obtain ⟨hsample, hsampleTokens⟩ := sampleTokens_iff.mp hfound.sample
    obtain ⟨htimes, htimesTokens⟩ := (eventTimeTokens_iff hfirst hlast).mp hfound.eventTimes
    obtain ⟨hfull, hfullTokens⟩ := fullRefreshTokens_iff.mp hfound.fullRefresh
    obtain ⟨hselector, hselectorTokens⟩ := (selectorTokens_iff hvalid).mp hfound.selector
    have hlengths : found.eventTimes.length =
        (shownTokens engine options command argv).eventTimes.length := by
      rw [htimesTokens, length_writtenEventTimes]
    obtain ⟨hsameTimes, hsameFull⟩ := (all_eq_iff hvarsTokens hemptyTokens hsampleTokens hlengths
      hselectorTokens).mp (List.append_cancel_left hout)
    have hwhole := writtenEventTimes_eq_iff.mp (htimesTokens.symm.trans hsameTimes)
    have hflag := fullRefresh_eq_iff.mp (hfullTokens.symm.trans hsameFull)
    refine ⟨hvars, hempty, hsample, fun start finish hsent => ?_,
      fun hsent => ⟨hfull hsent, hflag hsent⟩, hselector⟩
    obtain ⟨hsupported, hflagStart, hflagEnd⟩ := htimes (by rw [hsent]; rfl)
    obtain ⟨⟨hsecondsStart, hyearStart⟩, hsecondsEnd, hyearEnd⟩ := hwhole start finish hsent
    simp only [buildRunOptionsPayload, hsent, Option.map_some] at hfirst hlast
    obtain ⟨hrangeStart, -⟩ := receiveOptional_some hfirst
    obtain ⟨hrangeEnd, -⟩ := receiveOptional_some hlast
    exact ⟨hsupported, hflagStart, hflagEnd,
      ⟨hrangeStart.1, hrangeStart.2, hsecondsStart, hyearStart⟩,
      hrangeEnd.1, hrangeEnd.2, hsecondsEnd, hyearEnd⟩
  · intro haccepted
    obtain ⟨first, last, hfirst, hlast⟩ : ∃ first last,
        receiveOptional (buildRunOptionsPayload engine options command).eventTimeStart =
          some first ∧
        receiveOptional (buildRunOptionsPayload engine options command).eventTimeEnd =
          some last := by
      simp only [buildRunOptionsPayload]
      cases htimes : payloadEventTimes engine options command with
      | none => exact ⟨_, _, rfl, rfl⟩
      | some times =>
        obtain ⟨-, -, -, hstart, hend⟩ := haccepted.eventTimes times.1 times.2 htimes
        refine ⟨_, _, congrArg (Option.map some) (if_pos ⟨hstart.first, hstart.last⟩),
          congrArg (Option.map some) (if_pos ⟨hend.first, hend.last⟩)⟩
    have hwritten : writtenEventTimes (payloadEventTimes engine options command) =
        (shownTokens engine options command argv).eventTimes := by
      apply writtenEventTimes_eq_iff.mpr
      intro start finish hsent
      obtain ⟨-, -, -, hstart, hend⟩ := haccepted.eventTimes start finish hsent
      exact ⟨⟨hstart.seconds, hstart.year⟩, hend.seconds, hend.year⟩
    have hfull := fullRefresh_eq_iff.mpr fun hsent => (haccepted.fullRefresh hsent).2
    refine ⟨_, (receive_eq_some hvalid).mpr ⟨first, last, hfirst, hlast, rfl⟩,
      (appendRunOptions_eq_ok hlength).mpr ⟨shownTokens engine options command argv, ?_, rfl⟩⟩
    exact {
      vars := (varsTokens_iff hvalid htakes).mpr ⟨haccepted.vars, rfl⟩
      empty := emptyTokens_iff.mpr ⟨haccepted.empty, rfl⟩
      sample := sampleTokens_iff.mpr ⟨haccepted.sample, rfl⟩
      eventTimes := (eventTimeTokens_iff hfirst hlast).mpr ⟨fun hsent => by
        obtain ⟨times, htimes⟩ := Option.isSome_iff_exists.mp hsent
        obtain ⟨hsupported, hstart, hend, -⟩ := haccepted.eventTimes times.1 times.2 htimes
        exact ⟨hsupported, hstart, hend⟩, hwritten.symm⟩
      fullRefresh := fullRefreshTokens_iff.mpr
        ⟨fun hsent => (haccepted.fullRefresh hsent).1, hfull.symm⟩
      selector := (selectorTokens_iff hvalid).mpr ⟨haccepted.selector, rfl⟩ }

end

/-! ## What is kept -/

/-- State options are sent, unless the runner refuses them. -/
theorem stateKept : StateKept engine options command := by
  have hrefused {target : Option String}
      (hbad : (options.favorState = true ∧ options.defer = false) ∨
        options.defer = true ∧ target = none)
      (service : StateService) (request : DbtCommand) (name : String) (workspace : Workspace)
      (resolved : Option String) (htarget : request.stateTarget = target)
      (hdefer : request.defer = options.defer) (hfavor : request.favorState = options.favorState) :
      ∃ raised, resolveRequestState service request name workspace resolved = .error raised := by
    rw [resolveRequestState, hdefer, hfavor, htarget]
    rcases hbad with hbad | ⟨htrue, rfl⟩
    · exact ⟨_, if_pos hbad⟩
    · exact ⟨_, (if_neg fun hboth => by simp [htrue] at hboth).trans (if_pos ⟨htrue, rfl⟩)⟩
  rw [StateKept]
  by_cases hbad : (options.favorState = true ∧ options.defer = false) ∨
      options.defer = true ∧ (options.stateTarget.map trim).filter (· ≠ "") = none
  · exact Or.inr (hrefused hbad)
  · obtain ⟨hfavor, hdefer⟩ := not_or.mp hbad
    refine Or.inl ?_
    have hgiven : isGiven options.stateTarget =
        ((options.stateTarget.map trim).filter (· ≠ "")).isSome := by
      cases htext : options.stateTarget with
      | none => simp [isGiven, trim_empty]
      | some text => by_cases hblank : trim text = "" <;> simp [isGiven, hblank]
    simp only [buildRunOptionsPayload, hgiven]
    cases htarget : (options.stateTarget.map trim).filter (· ≠ "") with
    | none =>
      have hfalse : options.defer = false :=
        Bool.eq_false_iff.mpr fun htrue => hdefer ⟨htrue, htarget⟩
      have hplain : options.favorState = false :=
        Bool.eq_false_iff.mpr fun htrue => hfavor ⟨htrue, hfalse⟩
      simp [hfalse, hplain]
    | some target =>
      have hsome := (Option.filter_eq_some_iff.mp htarget).1
      have hboth : (options.defer && options.favorState) = options.favorState := by
        cases hdeferred : options.defer with
        | true => rfl
        | false => exact (Bool.eq_false_iff.mpr fun htrue => hfavor ⟨htrue, hdeferred⟩).symm
      simp [hsome, hboth]

theorem payloadWindow_eq {found : Option SampleWindow}
    (hfound : validateSample options.sample = .ok found) :
    payloadWindow options command =
      if offers command sampleCommands = true then found else none := by
  rw [payloadWindow, hfound]
  rcases validateSample_eq_ok hfound with ⟨-, rfl⟩ | ⟨hgiven, -⟩
  · simp [valid]
  · rw [isNonempty_of_isGiven hgiven, Bool.true_and]
    rfl

theorem payloadEventTimes_eq {found : Option (ℤ × ℤ)}
    (hfound : validateEventTime engine options.eventTimeStart options.eventTimeEnd = .ok found) :
    payloadEventTimes engine options command =
      if offers command eventTimeCommands = true then found else none := by
  rw [payloadEventTimes, hfound]
  rcases validateEventTime_eq_ok hfound with ⟨-, -, rfl⟩ | ⟨hstart, hend, -⟩
  · simp [valid]
  · rw [isNonempty_of_isGiven hstart, isNonempty_of_isGiven hend, Bool.true_and, Bool.true_and]
    rfl

theorem sample_iff {rest : Prop} (hvalid : Validated engine options) :
    ((∀ window, validateSample options.sample = .ok (some window) →
        (buildRunOptionsPayload engine options command).sample = some window.normalized ∨
          Refused argv field commands) ∧
      ((payloadWindow options command).isSome = true → takes argv commands = true ∧ rest)) ↔
    (isGiven options.sample = true →
      offers command sampleCommands = takes argv commands ∧
        (offers command sampleCommands = true → rest)) := by
  obtain ⟨found, hfound⟩ := hvalid.sample
  rw [← sent_iff, buildRunOptionsPayload, payloadWindow_eq hfound, refused_iff, hfound]
  rcases validateSample_eq_ok hfound with ⟨hblank, rfl⟩ | ⟨hgiven, window, rfl, -⟩
  · simp [hblank]
  · cases offers command sampleCommands <;> simp [hgiven]

theorem eventTimes_iff {rest : ℤ → ℤ → Prop} (hvalid : Validated engine options) :
    ((∀ start finish, validateEventTime engine options.eventTimeStart options.eventTimeEnd =
          .ok (some (start, finish)) →
        (buildRunOptionsPayload engine options command).eventTimeStart = some start ∧
            (buildRunOptionsPayload engine options command).eventTimeEnd = some finish ∨
          Refused argv field commands) ∧
      (∀ start finish, payloadEventTimes engine options command = some (start, finish) →
        takes argv commands = true ∧ rest start finish)) ↔
    (∀ start finish, validateEventTime engine options.eventTimeStart options.eventTimeEnd =
        .ok (some (start, finish)) →
      offers command eventTimeCommands = takes argv commands ∧
        (offers command eventTimeCommands = true → rest start finish)) := by
  obtain ⟨found, hfound⟩ := hvalid.eventTimes
  simp only [buildRunOptionsPayload, payloadEventTimes_eq hfound, refused_iff, hfound]
  cases found with
  | none => simp
  | some times =>
    have hone {claim : ℤ → ℤ → Prop} :
        (∀ start finish, (Except.ok (some times) : Except String (Option (ℤ × ℤ))) =
          .ok (some (start, finish)) → claim start finish) ↔ claim times.1 times.2 := by
      apply Iff.intro
      · intro hall
        exact hall times.1 times.2 rfl
      · intro hclaim start finish hsame
        cases hsame
        exact hclaim
    rw [hone, hone]
    cases offers command eventTimeCommands with
    | true =>
      simp only [if_true, Option.map_some, true_and, true_or, Option.some.injEq, forall_const,
        eq_comm (a := true)]
      apply Iff.intro
      · intro hall
        exact hall times.1 times.2 rfl
      · intro hclaim start finish hsame
        cases hsame
        exact hclaim
    | false =>
      simp only [Bool.false_eq_true, if_false, Option.map_none, reduceCtorEq, false_and,
        false_or, false_implies, implies_true, and_true]
      exact eq_comm

/-- An argv that passes has a subcommand, which takes variables. -/
theorem takes_of_validateDbtArgv (hallowed : validateDbtArgv argv = .ok ()) :
    2 ≤ argv.length ∧ takes argv Services.DbtArgv.varsCommands = true := by
  match argv with
  | [] | [_] => cases hallowed
  | program :: subcommand :: rest =>
    have hsubcommand := Services.Launch.allowed_of_validateDbtArgv hallowed
    refine ⟨Nat.le_add_left 2 rest.length, ?_⟩
    rw [takes, Bool.or_eq_true]
    exact Or.inr (decide_eq_true hsubcommand)

/-- An option without a value, as `sent_iff` says. -/
theorem flag_iff {isSet : Bool} {shown : List String} {rest : Prop} :
    ((isSet = true → (isSet && offers command shown) = true ∨ Refused argv field commands) ∧
      ((isSet && offers command shown) = true → takes argv commands = true ∧ rest)) ↔
    (isSet = true → SameTable command argv shown commands ∧
      (offers command shown = true → rest)) := by
  rw [refused_iff]
  exact sent_iff

/-- A selector that is given is sent where it is offered. -/
theorem selector_kept_iff :
    (isGiven options.selectorName = true →
      (buildRunOptionsPayload engine options command).selectorName =
          some (trim (options.selectorName.getD "")) ∨ Refused argv field commands) ↔
    (isGiven options.selectorName = true →
      (isGiven options.selectorName && offers command selectorCommands) = true ∨
        Refused argv field commands) := by
  refine forall_congr' fun hgiven => or_congr_left ?_
  have hname : ∃ text, options.selectorName = some text := by
    cases htext : options.selectorName with
    | none =>
      rw [htext] at hgiven
      exact absurd trim_empty (of_decide_eq_true hgiven)
    | some text => exact ⟨text, rfl⟩
  obtain ⟨text, htext⟩ := hname
  rw [buildRunOptionsPayload, isNonempty_of_isGiven hgiven, hgiven, htext]
  cases offers command selectorCommands <;> simp

/-- The runner does what the editor shows, if and only if the options, the command and the
project are as the condition says. -/
theorem agrees_iff_careful (engine : Engine) (options : RunOptionsState) (command : String)
    (target : Option String) (argv : List String) (selectorsYml : SelectorsYml)
    (hvalid : Validated engine options)
    (_hargv : runnerArgv (sentCommand engine options command target) = .ok argv)
    (hallowed : validateDbtArgv argv = .ok ()) :
    Agrees engine options command argv selectorsYml ↔
      Careful engine options command argv selectorsYml := by
  obtain ⟨hlength, htakes⟩ := takes_of_validateDbtArgv hallowed
  apply Iff.intro
  · intro ⟨hkept, hrequest⟩
    have haccepted := (accepted_iff hvalid hlength htakes).mp hrequest
    exact {
      distinct := (vars_kept_iff hvalid).mp hkept.vars
      vars := haccepted.vars
      empty := flag_iff.mp ⟨hkept.empty, haccepted.empty⟩
      sample := (sample_iff hvalid).mp ⟨hkept.sample, haccepted.sample⟩
      eventTimes := (eventTimes_iff hvalid).mp ⟨hkept.eventTimes, haccepted.eventTimes⟩
      fullRefresh := flag_iff.mp ⟨hkept.fullRefresh, haccepted.fullRefresh⟩
      selector := flag_iff.mp ⟨selector_kept_iff.mp hkept.selector, haccepted.selector⟩ }
  · intro hcareful
    obtain ⟨hempty, hemptyAccepted⟩ := flag_iff.mpr hcareful.empty
    obtain ⟨hsample, hsampleAccepted⟩ := (sample_iff hvalid).mpr hcareful.sample
    obtain ⟨htimes, htimesAccepted⟩ := (eventTimes_iff hvalid).mpr hcareful.eventTimes
    obtain ⟨hfull, hfullAccepted⟩ := flag_iff.mpr hcareful.fullRefresh
    obtain ⟨hselector, hselectorAccepted⟩ := flag_iff.mpr hcareful.selector
    exact {
      kept := {
        vars := (vars_kept_iff hvalid).mpr hcareful.distinct
        empty := hempty
        sample := hsample
        eventTimes := htimes
        fullRefresh := hfull
        selector := selector_kept_iff.mpr hselector
        state := stateKept }
      accepted := (accepted_iff hvalid hlength htakes).mpr {
        vars := hcareful.vars
        empty := hemptyAccepted
        sample := hsampleAccepted
        eventTimes := htimesAccepted
        fullRefresh := hfullAccepted
        selector := hselectorAccepted } }

/-- JavaScript, where no text is read as a number, as JSON or as a date. -/
def plainEngine : Engine := ⟨fun _ => none, fun _ => none, fun _ => none⟩

/-- A full refresh of a sample of three days. -/
def sampled : RunOptionsState := { empty := true, sample := some "3 days", fullRefresh := true }

theorem agrees_of_sampled : Agrees plainEngine sampled "run" ["dbt", "run"] .absent := by
  have hvalid : Validated plainEngine sampled :=
    ⟨nofun, nofun, ⟨some ⟨"3", "day"⟩, by decide +kernel⟩, ⟨none, rfl⟩, rfl⟩
  apply (agrees_iff_careful plainEngine sampled "run" none ["dbt", "run"] .absent hvalid
    (by decide +kernel) (by decide +kernel)).mpr
  exact {
    distinct := ⟨nofun, fun hentries => absurd rfl hentries, nofun⟩
    vars := fun hvars => absurd rfl hvars
    empty := fun _ => ⟨by decide +kernel, fun _ => by decide +kernel⟩
    sample := fun _ => ⟨by decide +kernel, fun _ => by decide +kernel⟩
    eventTimes := nofun
    fullRefresh := fun _ => ⟨by decide +kernel, fun hflag => by revert hflag; decide +kernel⟩
    selector := fun hgiven => absurd hgiven (by decide +kernel) }

/-- The selector of another command is sent with `docs serve`, which has none. -/
theorem not_agrees_of_docs_serve :
    ¬ ∀ (engine : Engine) (options : RunOptionsState) (command : String) (target : Option String)
      (argv : List String) (selectorsYml : SelectorsYml), Validated engine options →
        runnerArgv (sentCommand engine options command target) = .ok argv →
          validateDbtArgv argv = .ok () →
            Agrees engine options command argv selectorsYml := by
  intro hevery
  have hvalid : Validated plainEngine { selectorName := some "nightly" } :=
    ⟨nofun, nofun, ⟨none, rfl⟩, ⟨none, rfl⟩, by decide +kernel⟩
  have hallowed : validateDbtArgv ["dbt", "docs", "serve"] = .ok () := by decide +kernel
  have hagrees := hevery plainEngine { selectorName := some "nightly" } "docs serve" none
    ["dbt", "docs", "serve"] .absent hvalid (by decide +kernel) hallowed
  obtain ⟨hlength, htakes⟩ := takes_of_validateDbtArgv hallowed
  have haccepted := (accepted_iff hvalid hlength htakes).mp hagrees.accepted
  have hselector := (haccepted.selector (by decide +kernel)).1
  revert hselector
  decide +kernel

end DbtCraft.Web.RunOptionsAgreement

/-
# Requests with run options

A request with the fields that the editor builds, as the runner reads them, for the argv of
the command that goes with them, and what it is that the editor shows: the variables, the
sample window and the event times, each with the text that dbt is to get.
-/

import DbtCraft.Python.Environ
import DbtCraft.Python.Shlex
import DbtCraft.Services.OptionTokens
import DbtCraft.Web.RunOptions

namespace DbtCraft.Web.RunOptionsRequest

open DbtCraft.Python DbtCraft.Web.RunOptions
open DbtCraft.Server.AiProviders (trim)
open DbtCraft.Services.DbtArgv (DbtRunOptions)
open DbtCraft.Services.OptionTokens (Tokens)

/-! ## The request as the runner reads it -/

/-- The clock of UTC at a time of JavaScript, in microseconds. -/
def wallOf (time : ℤ) : ℤ := (time + 62135596800000) * 1000

/-- The datetime of a field, which has a year from 1 to 9999. -/
def receiveTime (time : ℤ) : Option Datetime :=
  if 0 ≤ wallOf time ∧ wallOf time < Datetime.limit then some ⟨wallOf time, some 0⟩ else none

def receiveOptional : Option ℤ → Option (Option Datetime)
  | none => some none
  | some time => (receiveTime time).map some

/-- The fields of `DbtRunOptions`, with the event times that have been read. -/
def fields (payload : DbtRunOptionsPayload) (eventTimeStart eventTimeEnd : Option Datetime) :
    DbtRunOptions where
  vars := payload.vars.map Json.readMembers
  empty := payload.empty
  sample := payload.sample
  eventTimeStart := eventTimeStart
  eventTimeEnd := eventTimeEnd
  fullRefresh := payload.fullRefresh
  selectorName := payload.selectorName

/-- `DbtRunOptions`; `none` is a request that is refused. -/
def receive (payload : DbtRunOptionsPayload) : Option DbtRunOptions := do
  let eventTimeStart ← receiveOptional payload.eventTimeStart
  let eventTimeEnd ← receiveOptional payload.eventTimeEnd
  if (payload.sample.getD "").length ≤ 32 ∧ (payload.selectorName.getD "").length ≤ 128 then
    some (fields payload eventTimeStart eventTimeEnd)
  else none

/-- The argv with which the runner begins. -/
def runnerArgv (command : String) : Except Raised (List String) :=
  (shlexSplit command).map ("dbt" :: ·)

/-! ## What the editor shows -/

/-- The validators of the dialog find no fault. -/
structure Validated (engine : Engine) (options : RunOptionsState) : Prop where
  entries : ∀ entries ∈ options.varEntries,
    ∃ found, validateVars engine (.entries entries) = .ok found
  vars : ∀ vars ∈ options.vars, ∃ found, validateVars engine (.object vars) = .ok found
  sample : ∃ found, validateSample options.sample = .ok found
  eventTimes : ∃ found,
    validateEventTime engine options.eventTimeStart options.eventTimeEnd = .ok found
  selector : validateSelectorName options.selectorName = .ok ()

/-- The variables of entries, with the values that are shown for them. -/
def entryVariables (engine : Engine) (entries : List VarEntry) : List (String × Json) :=
  entries.filterMap fun entry =>
    if trim entry.key = "" then none
    else some (trim entry.key, coerceVarValue engine entry.value)

/-- Every variable that is set. -/
def setVariables (engine : Engine) (options : RunOptionsState) : List (String × Json) :=
  entryVariables engine (options.varEntries.getD []) ++ options.vars.getD []

/-- `json.dumps` of variables. -/
def varsText (vars : Dict String Json) : String :=
  match jsonDumps (.dict (Json.readMembers vars)) with
  | .ok text => text
  | .error _ => ""

/-- The zeros before a year of less than four digits. -/
def yearZeros (year : ℕ) : List Char :=
  List.replicate (if year < 10 then 3 else if year < 100 then 2 else if year < 1000 then 1 else 0)
    '0'

/-- The milliseconds of a time, behind a point. -/
def fraction (time : ℤ) : List Char :=
  let milliseconds := (time % 1000).toNat
  if milliseconds = 0 then []
  else '.' :: (Datetime.twoDigits (milliseconds / 10)).toList ++
    (toString (milliseconds % 10)).toList

def yearOf (time : ℤ) : ℕ := (Datetime.civil ((wallOf time).toNat / 1000000 / 86400)).1

/-- A time on the clock of UTC, as ISO 8601 writes it. -/
def eventTimeText (time : ℤ) : String :=
  String.ofList (yearZeros (yearOf time)) ++ Datetime.strftime (wallOf time).toNat ++
    String.ofList (fraction time)

section

variable (engine : Engine) (options : RunOptionsState) (command : String) (argv : List String)

/-- The tokens with the meaning of the options that the editor sends. A grain has the same
meaning with and without its `s`. -/
def shownTokens : Tokens where
  vars :=
    match payloadVars engine options with
    | some vars => ["--vars", varsText vars]
    | none => []
  empty := if (buildRunOptionsPayload engine options command).empty then ["--empty"] else []
  sample :=
    match payloadWindow options command with
    | some window => ["--sample", window.count ++ " " ++ window.grain]
    | none => []
  eventTimes :=
    match payloadEventTimes engine options command with
    | some (start, finish) => ["--event-time-start", eventTimeText start,
        "--event-time-end", eventTimeText finish]
    | none => []
  fullRefresh :=
    if (buildRunOptionsPayload engine options command).fullRefresh ∧
        "--full-refresh" ∉ argv.drop 2 then ["--full-refresh"]
    else []
  selector :=
    let name := (buildRunOptionsPayload engine options command).selectorName.getD ""
    if name = "" then [] else ["--selector", name]

end

/-! ## Variables -/

/-- Variables assigned one after the other. -/
def assignAll (object : VarsObject) (items : List (String × Json)) : VarsObject :=
  items.foldl (fun object item => object.assign item.1 item.2) object

/-- The object that the editor makes of the variables. -/
def enteredVars (engine : Engine) (options : RunOptionsState) : Dict String Json :=
  match options.varEntries with
  | some (first :: rest) =>
    (assignAll {} (entryVariables engine (first :: rest))).own
  | _ => options.vars.getD []

/-- No variable is lost beside the others: each name has one value, the entries name what is
in `vars` too, and `__proto__` is no name, unless it is given twice with a value that ends
its special meaning. -/
structure Distinct (engine : Engine) (options : RunOptionsState) : Prop where
  value : ∀ name first second, (name, first) ∈ entryVariables engine (options.varEntries.getD []) →
    (name, second) ∈ entryVariables engine (options.varEntries.getD []) → first = second
  vars : options.varEntries.getD [] ≠ [] → ∀ item ∈ options.vars.getD [],
    item ∈ entryVariables engine (options.varEntries.getD [])
  proto : ∀ value, ("__proto__", value) ∈ entryVariables engine (options.varEntries.getD []) →
    keepsSetter value = false ∧
      2 ≤ ((entryVariables engine (options.varEntries.getD [])).filter
        (·.1 = "__proto__")).length

variable {engine : Engine} {options : RunOptionsState} {command : String} {argv : List String}
  {items : List (String × Json)} {name : String} {value : Json}

/-- The assignments that make a member, on an object that inherits the accessor of
`__proto__` or not. -/
def made : Bool → List (String × Json) → List (String × Json)
  | _, [] => []
  | setter, item :: rest =>
    if item.1 = "__proto__" ∧ setter = true then made (keepsSetter item.2) rest
    else item :: made setter rest

theorem own_assignAll (object : VarsObject) :
    (assignAll object items).own =
      (made object.setter items).foldl (fun dict item => dict.set item.1 item.2) object.own := by
  induction items generalizing object with
  | nil => rfl
  | cons item rest ih =>
    rw [assignAll, List.foldl_cons, ← assignAll, ih, VarsObject.assign, made]
    split <;> rfl

theorem mem_of_mem_made {setter : Bool} {item : String × Json} (hitem : item ∈ made setter items) :
    item ∈ items := by
  induction items generalizing setter with
  | nil => exact hitem
  | cons first rest ih =>
    rw [made] at hitem
    split at hitem
    · exact List.mem_cons_of_mem _ (ih hitem)
    · rcases List.mem_cons.mp hitem with hsame | hrest
      · exact hsame ▸ List.mem_cons_self
      · exact List.mem_cons_of_mem _ (ih hrest)

theorem made_false : made false items = items := by
  induction items with
  | nil => rfl
  | cons first rest ih => rw [made, if_neg (by simp), ih]

theorem mem_made_of_ne {setter : Bool} {item : String × Json} (hitem : item ∈ items)
    (hname : item.1 ≠ "__proto__") : item ∈ made setter items := by
  induction items generalizing setter with
  | nil => exact hitem
  | cons first rest ih =>
    rw [made]
    rcases List.mem_cons.mp hitem with hsame | hrest
    · rw [if_neg fun hproto => hname (hsame ▸ hproto.1)]
      exact hsame ▸ List.mem_cons_self
    · split
      · exact ih hrest
      · exact List.mem_cons_of_mem _ (ih hrest)

/-- As long as every value keeps the accessor, `__proto__` is never made a member. -/
theorem not_mem_made (hkeeps : ∀ value, ("__proto__", value) ∈ items → keepsSetter value = true) :
    ("__proto__", value) ∉ made true items := by
  induction items with
  | nil => exact List.not_mem_nil
  | cons first rest ih =>
    have hrest := ih fun value hvalue => hkeeps value (List.mem_cons_of_mem _ hvalue)
    obtain ⟨name, given⟩ := first
    rw [made]
    split
    next hproto =>
      obtain rfl : name = "__proto__" := hproto.1
      rw [hkeeps given List.mem_cons_self]
      exact hrest
    next hother =>
      rintro (_ | ⟨_, hmem⟩)
      · exact hother ⟨rfl, rfl⟩
      · exact hrest hmem

/-- The first value of `__proto__` makes no member. -/
theorem two_le_of_mem_made (hitem : ("__proto__", value) ∈ made true items) :
    2 ≤ (items.filter (·.1 = "__proto__")).length := by
  induction items with
  | nil => cases hitem
  | cons first rest ih =>
    rw [made] at hitem
    split at hitem
    next hproto =>
      have hmem : ("__proto__", value) ∈ rest.filter (·.1 = "__proto__") :=
        List.mem_filter.mpr ⟨mem_of_mem_made hitem, decide_eq_true rfl⟩
      rw [List.filter_cons, if_pos (decide_eq_true hproto.1)]
      exact Nat.succ_le_succ (List.length_pos_of_mem hmem)
    next hother =>
      rcases List.mem_cons.mp hitem with hsame | hrest
      · exact absurd ⟨congrArg Prod.fst hsame.symm, rfl⟩ hother
      · refine Nat.le_trans (ih hrest) (List.Sublist.length_le ?_)
        exact (List.sublist_cons_self _ _).filter _

/-- A value of `__proto__` that ends the accessor makes a member the second time. -/
theorem mem_made_proto (hsame : ∀ other, ("__proto__", other) ∈ items → other = value)
    (hends : keepsSetter value = false)
    (htwice : 2 ≤ (items.filter (·.1 = "__proto__")).length) :
    ("__proto__", value) ∈ made true items := by
  induction items with
  | nil => cases htwice
  | cons first rest ih =>
    obtain ⟨name, given⟩ := first
    rw [made]
    split
    next hproto =>
      obtain rfl : name = "__proto__" := hproto.1
      obtain rfl : given = value := hsame given List.mem_cons_self
      rw [hends, made_false]
      rw [List.filter_cons, if_pos (decide_eq_true rfl), List.length_cons] at htwice
      obtain ⟨⟨other, otherValue⟩, hother⟩ :=
        List.exists_mem_of_length_pos (Nat.le_of_succ_le_succ htwice)
      obtain ⟨hmem, hname⟩ := List.mem_filter.mp hother
      obtain rfl : other = "__proto__" := of_decide_eq_true hname
      exact hsame otherValue (List.mem_cons_of_mem _ hmem) ▸ hmem
    next hother =>
      have hname : name ≠ "__proto__" := fun hproto => hother ⟨hproto, rfl⟩
      rw [List.filter_cons_of_neg (by simpa using hname)] at htwice
      exact List.mem_cons_of_mem _
        (ih (fun other hmem => hsame other (List.mem_cons_of_mem _ hmem)) htwice)

/-- The members are what the assignments make, where each name has one value. -/
theorem mem_own_iff {item : String × Json}
    (hone : ∀ name first second, (name, first) ∈ items → (name, second) ∈ items →
      first = second) :
    item ∈ (assignAll {} items).own ↔ item ∈ made true items := by
  rw [own_assignAll]
  apply Iff.intro
  · intro hitem
    exact (Dict.mem_of_mem_foldl_set hitem).resolve_right List.not_mem_nil
  · intro hitem
    have hsome : Dict.get ((made true items).foldl
        (fun dict item => Dict.set dict item.1 item.2) []) item.1 ≠ none :=
      Dict.get_foldl_set_ne_none_iff.mpr (Or.inl ⟨item, hitem, rfl⟩)
    obtain ⟨value, hvalue⟩ := Option.ne_none_iff_exists'.mp hsome
    obtain ⟨other, hother, hname, rfl⟩ :=
      (Dict.eq_of_get_foldl_set hvalue).resolve_right (by simp)
    have hsame : other.2 = item.2 :=
      hone item.1 _ _ (hname ▸ mem_of_mem_made hother) (mem_of_mem_made hitem)
    rw [hsame] at hvalue
    exact Dict.mem_of_get hvalue

/-- The loop assigns the variables of the entries. -/
theorem assignEntries_eq_ok {object result : VarsObject} {entries : List VarEntry}
    (hresult : assignEntries engine object entries = .ok result) :
    result = assignAll object (entryVariables engine entries) := by
  induction entries generalizing object with
  | nil => exact (Except.ok.inj hresult).symm
  | cons entry rest ih =>
    rw [assignEntries] at hresult
    by_cases hkey : trim entry.key = ""
    · have hskip : entryVariables engine (entry :: rest) = entryVariables engine rest :=
        List.filterMap_cons_none (if_pos hkey)
      split at hresult
      · rw [hskip]
        exact ih hresult
      · cases hresult
    · have htake : entryVariables engine (entry :: rest) =
          (trim entry.key, coerceVarValue engine entry.value) :: entryVariables engine rest :=
        List.filterMap_cons_some (if_neg hkey)
      rw [if_neg fun hblank => hkey hblank.1, if_neg hkey] at hresult
      rw [htake, assignAll, List.foldl_cons, ← assignAll]
      dsimp only
      exact ih hresult

theorem checkVars_eq_ok {own : Dict String Json} {found : Option (Dict String Json)}
    (hfound : checkVars own = .ok found) : found = (some own).filter (!·.isEmpty) := by
  simp only [checkVars] at hfound
  rw [Option.filter_some]
  split at hfound
  next hempty =>
    cases hfound
    rw [if_neg (by simp [hempty])]
  next hmembers =>
    split at hfound
    · cases hfound
    · cases hfound
      rw [if_pos (by simpa using hmembers)]

/-- The request has the object of the variables, if it has a member. -/
theorem payloadVars_eq (hvalid : Validated engine options) :
    payloadVars engine options = (some (enteredVars engine options)).filter (!·.isEmpty) := by
  have hrest : options.vars.filter (!·.isEmpty) =
      (some (options.vars.getD [])).filter (!·.isEmpty) := by
    cases options.vars <;> rfl
  rw [payloadVars, enteredVars]
  cases hentries : options.varEntries with
  | none => exact hrest
  | some entries =>
    cases entries with
    | nil => exact hrest
    | cons first rest =>
      obtain ⟨found, hfound⟩ := hvalid.entries _ hentries
      obtain ⟨object, hobject, hcheck⟩ := bind_eq_ok.mp hfound
      dsimp only
      rw [hfound, ← assignEntries_eq_ok hobject]
      exact checkVars_eq_ok hcheck

/-- No variable is lost exactly if they are distinct. -/
theorem vars_kept_iff (hvalid : Validated engine options) :
    (∀ item ∈ setVariables engine options,
      ∃ vars, payloadVars engine options = some vars ∧ item ∈ vars) ↔ Distinct engine options := by
  have hmem : ∀ item, (∃ vars, payloadVars engine options = some vars ∧ item ∈ vars) ↔
      item ∈ enteredVars engine options := by
    intro item
    rw [payloadVars_eq hvalid]
    cases enteredVars engine options <;> simp
  simp only [hmem, setVariables]
  rw [enteredVars]
  split
  next first rest hentries =>
    have hgiven : options.varEntries.getD [] = first :: rest := by rw [hentries]; rfl
    rw [hgiven]
    apply Iff.intro
    · intro hkept
      have hown : ∀ item ∈ entryVariables engine (first :: rest),
          item ∈ (assignAll {} (entryVariables engine (first :: rest))).own :=
        fun item hitem => hkept item (List.mem_append_left _ hitem)
      have hnodup : ((assignAll {} (entryVariables engine (first :: rest))).own.map
          Prod.fst).Nodup := by
        rw [own_assignAll]
        exact Dict.nodup_foldl_set List.nodup_nil
      have hmade : ∀ item ∈ (assignAll {} (entryVariables engine (first :: rest))).own,
          item ∈ made true (entryVariables engine (first :: rest)) := by
        intro item hitem
        rw [own_assignAll] at hitem
        exact (Dict.mem_of_mem_foldl_set hitem).resolve_right List.not_mem_nil
      have hone : ∀ name one two, (name, one) ∈ entryVariables engine (first :: rest) →
          (name, two) ∈ entryVariables engine (first :: rest) → one = two := by
        intro name one two hfirst hsecond
        have hsame := (Dict.get_of_mem hnodup (hown _ hfirst)).symm.trans
          (Dict.get_of_mem hnodup (hown _ hsecond))
        exact Option.some_inj.mp hsame
      refine ⟨hgiven ▸ hone, fun _ item hitem => ?_, fun value hvalue => ?_⟩
      · rw [hgiven]
        exact mem_of_mem_made (hmade item (hkept item (List.mem_append_right _ hitem)))
      · rw [hgiven] at hvalue ⊢
        have hmember := hmade _ (hown _ hvalue)
        refine ⟨?_, two_le_of_mem_made hmember⟩
        apply Bool.eq_false_iff.mpr
        intro hkeeps
        exact not_mem_made (fun other hother => hone _ _ _ hvalue hother ▸ hkeeps) hmember
    · intro hdistinct item hitem
      have hone := hdistinct.value
      have hshown := hdistinct.vars
      have hproto := hdistinct.proto
      rw [hgiven] at hone hshown hproto
      have hentry : item ∈ entryVariables engine (first :: rest) :=
        (List.mem_append.mp hitem).elim id (hshown (List.cons_ne_nil _ _) item)
      refine (mem_own_iff hone).mpr ?_
      by_cases hname : item.1 = "__proto__"
      · obtain ⟨name, value⟩ := item
        obtain rfl : name = "__proto__" := hname
        obtain ⟨hends, htwice⟩ := hproto value hentry
        exact mem_made_proto (fun other hother => hone _ _ _ hother hentry) hends htwice
      · exact mem_made_of_ne hentry hname
  next hnone =>
    have hempty : options.varEntries.getD [] = [] := by
      match hentries : options.varEntries with
      | none | some [] => rfl
      | some (first :: rest) => exact (hnone first rest hentries).elim
    rw [hempty]
    refine iff_of_true (fun item hitem => hitem) ⟨?_, fun hne => absurd hempty hne, ?_⟩
    · rw [hempty]
      exact nofun
    · rw [hempty]
      exact nofun

/-! ## Sample windows -/

/-- The shape of a window that the editor reads. -/
structure Formed (window : SampleWindow) : Prop where
  digits : ∀ c ∈ window.count.toList, c.isDigit = true
  nonempty : window.count.toList ≠ []
  short : window.count.toList.length ≤ 6
  head : window.count.toList.head? ≠ some '0'
  grain : window.grain ∈ ["hour", "day", "month", "year"]

variable {window : SampleWindow}

theorem formed_of_matchSample {text : List Char} (hmatch : matchSample text = some window) :
    Formed window := by
  obtain ⟨⟨hnonempty, hshort, hhead, -, hgrain, -⟩, hwindow⟩ :=
    Option.ite_none_right_eq_some.mp hmatch
  cases hwindow
  rw [← String.toList_ofList (l := List.takeWhile Char.isDigit _)] at hnonempty hshort hhead
  refine ⟨fun c hc => ?_, hnonempty, hshort, hhead, hgrain⟩
  rw [String.toList_ofList] at hc
  exact List.mem_takeWhile_imp hc

theorem valid_eq_some {α : Type} {result : Except String (Option α)} {found : α} :
    valid result = some found ↔ result = .ok (some found) := by
  cases result with
  | ok other => exact Except.ok.injEq _ _ ▸ Iff.rfl
  | error message => exact iff_of_false nofun nofun

/-- A sample that is given has a window, once it is valid. -/
theorem validateSample_eq_ok {sample : Option String} {found : Option SampleWindow}
    (hfound : validateSample sample = .ok found) :
    (isGiven sample = false ∧ found = none) ∨
      isGiven sample = true ∧ ∃ window, found = some window ∧ Formed window := by
  simp only [validateSample] at hfound
  split at hfound
  next hblank => exact Or.inl ⟨hblank, (Except.ok.inj hfound).symm⟩
  next hgiven =>
    split at hfound
    · cases hfound
    · split at hfound
      next window hmatch =>
        cases hfound
        exact Or.inr ⟨by simpa using hgiven, window, rfl, formed_of_matchSample hmatch⟩
      · cases hfound

/-- The runner reads the window that the editor prints. -/
theorem sampleParts_normalized (hformed : Formed window) :
    Services.DbtArgv.sampleParts window.normalized = some (window.count, window.grain) := by
  obtain ⟨hdigits, hnonempty, hshort, hhead, hgrain⟩ := hformed
  have htext (word : List Char) :
      (window.count.toList ++ ' ' :: word).dropWhile isSpace =
        window.count.toList ++ ' ' :: word := by
    cases hcount : window.count.toList with
    | nil => exact absurd hcount hnonempty
    | cons first rest =>
      have hfirst : first.isAlphanum = true := by
        rw [Char.isAlphanum, hdigits first (hcount ▸ List.mem_cons_self), Bool.or_true]
      exact List.dropWhile_cons_of_neg (by rw [isSpace_of_isAlphanum hfirst]; decide)
  have htake (word : List Char) :
      (window.count.toList ++ ' ' :: word).takeWhile Char.isDigit = window.count.toList := by
    rw [List.takeWhile_append_of_pos hdigits, List.takeWhile_cons_of_neg (by decide),
      List.append_nil]
  have hdrop (word : List Char) :
      (window.count.toList ++ ' ' :: word).dropWhile Char.isDigit = ' ' :: word := by
    rw [List.dropWhile_append_of_pos hdigits, List.dropWhile_cons_of_neg (by decide)]
  have hparts (word : String) (hnormalized : window.normalized = window.count ++ " " ++ word)
      (hplain : (word.toList.takeWhile fun c => !isSpace c) = word.toList ∧
        (word.toList.dropWhile fun c => !isSpace c) = [] ∧ word.toList.dropWhile isSpace = word.toList)
      (hsingular : String.ofList ((if word.toList.getLast?.any Services.DbtArgv.isPluralS then
        word.toList.dropLast else word.toList).map Char.toLower) = window.grain) :
      Services.DbtArgv.sampleParts window.normalized = some (window.count, window.grain) := by
    have hlist : window.normalized.toList = window.count.toList ++ ' ' :: word.toList := by
      rw [hnormalized, String.append_assoc, String.toList_append, String.toList_append]
      rfl
    have hspace : (' ' :: word.toList).dropWhile isSpace = word.toList := by
      rw [List.dropWhile_cons_of_pos (by decide), hplain.2.2]
    simp only [Services.DbtArgv.sampleParts, hlist, htext, htake, hdrop, hspace, hplain.1,
      hplain.2.1, hsingular, String.ofList_toList]
    rw [if_pos ⟨hnonempty, hshort, hhead, rfl, hgrain, rfl⟩]
  have hcases : window.normalized = window.count ++ " " ++ window.grain ∨
      window.normalized = window.count ++ " " ++ (window.grain ++ "s") := by
    rw [SampleWindow.normalized]
    split
    · exact Or.inl rfl
    · exact Or.inr rfl
  simp only [List.mem_cons, List.not_mem_nil, or_false] at hgrain
  rcases hcases with hsame | hplural
  · refine hparts _ hsame ?_ ?_ <;> rcases hgrain with h | h | h | h <;> rw [h] <;> decide
  · refine hparts _ hplural ?_ ?_ <;> rcases hgrain with h | h | h | h <;> rw [h] <;> decide

theorem length_normalized (hformed : Formed window) :
    0 < window.normalized.length ∧ window.normalized.length ≤ 32 := by
  have hgrain : window.grain.length ≤ 5 := by
    have hall : ∀ grain ∈ ["hour", "day", "month", "year"], grain.length ≤ 5 := by decide
    exact hall _ hformed.grain
  have hshort := hformed.short
  rw [String.length_toList] at hshort
  have hspace : " ".length = 1 := rfl
  have hplural : "s".length = 1 := rfl
  rw [SampleWindow.normalized]
  split <;> simp only [String.length_append] <;> omega

/-! ## Event times -/

/-- What a runner writes is what the editor shows, unless a part of a second or a zero of the
year is missing. -/
theorem strftime_eq_iff (time : ℤ) :
    Datetime.strftime (wallOf time).toNat = eventTimeText time ↔
      time % 1000 = 0 ∧ 1000 ≤ yearOf time := by
  have hlength : (eventTimeText time).length = (yearZeros (yearOf time)).length +
      (Datetime.strftime (wallOf time).toNat).length + (fraction time).length := by
    rw [eventTimeText, String.length_append, String.length_append, String.length_ofList,
      String.length_ofList]
  have hzeros : yearZeros (yearOf time) = [] ↔ 1000 ≤ yearOf time := by
    rw [yearZeros, List.replicate_eq_nil_iff]
    split
    · omega
    · split
      · omega
      · split <;> omega
  have hfraction : fraction time = [] ↔ time % 1000 = 0 := by
    simp only [fraction]
    split
    next hzero => exact iff_of_true rfl (by omega)
    next hsome => exact iff_of_false (List.cons_ne_nil _ _) (by omega)
  rw [← hzeros, ← hfraction]
  apply Iff.intro
  · intro hsame
    rw [← hsame] at hlength
    exact ⟨List.eq_nil_of_length_eq_zero (by omega), List.eq_nil_of_length_eq_zero (by omega)⟩
  · intro ⟨hnone, hnil⟩
    rw [eventTimeText, hnone, hnil, String.ofList_nil, String.append_empty, String.empty_append]

/-- A pair of event times that is valid is given, and in order. -/
theorem validateEventTime_eq_ok {start finish : Option String} {found : Option (ℤ × ℤ)}
    (hfound : validateEventTime engine start finish = .ok found) :
    (isGiven start = false ∧ isGiven finish = false ∧ found = none) ∨
      isGiven start = true ∧ isGiven finish = true ∧
        ∃ first last, found = some (first, last) ∧ first < last := by
  simp only [validateEventTime] at hfound
  split at hfound
  next hblank => exact Or.inl ⟨hblank.1, hblank.2, (Except.ok.inj hfound).symm⟩
  next hsome =>
    split at hfound
    · cases hfound
    next hboth =>
      split at hfound
      · cases hfound
      · cases hfound
      next first last _ _ =>
        split at hfound
        · cases hfound
        next horder =>
          cases hfound
          have hsame : isGiven start = isGiven finish := not_not.mp hboth
          have hgiven : isGiven start = true := by
            cases hstart : isGiven start with
            | true => rfl
            | false => exact absurd ⟨hstart, hsame ▸ hstart⟩ hsome
          exact Or.inr ⟨hgiven, hsame ▸ hgiven, first, last, rfl, Int.not_le.mp horder⟩

theorem trim_empty : trim "" = "" := rfl

theorem isNonempty_of_isGiven {text : Option String} (hgiven : isGiven text = true) :
    isNonempty text = true := by
  simp only [isGiven, isNonempty, decide_eq_true_eq] at hgiven ⊢
  intro hempty
  exact hgiven (by rw [hempty, trim_empty])

end DbtCraft.Web.RunOptionsRequest

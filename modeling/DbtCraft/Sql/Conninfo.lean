/-
# Connection strings

The `key=value` strings of libpq, read one character at a time. A value is quoted, or
ends at a blank; a backslash keeps the character after it. What is read is never longer
than the text, and as long only where nothing has been escaped.
-/

import Mathlib.Algebra.GroupWithZero.Nat
import Mathlib.Algebra.Order.BigOperators.Group.List
import Mathlib.Algebra.Order.Group.Nat
import Mathlib.Data.List.Perm.Subperm
import Mathlib.Tactic.Common

namespace DbtCraft.Sql.Conninfo

/-- Where a reader is in a connection string, with what it has read of an option. -/
inductive State
  | start
  | name (read : List Char)
  | /-- After a blank that follows a name. -/
    nameEnd (name : List Char)
  | equals (name : List Char)
  | value (name read : List Char)
  | escape (name read : List Char)
  | quoted (name read : List Char)
  | quotedEscape (name read : List Char)

/-- An option and its value. -/
abbrev Setting := List Char × List Char

/-- `isspace`. -/
def isSpace (c : Char) : Bool :=
  c = ' ' || c = '\t' || c = '\n' || c = '\x0b' || c = '\x0c' || c = '\r'

/-- A character of a value that is not quoted. -/
def stepValue (name read : List Char) (c : Char) : List Setting × State :=
  if isSpace c then ([(name, read)], .start)
  else if c = '\\' then ([], .escape name read)
  else ([], .value name (read ++ [c]))

/-- The settings that a character ends; `none` is an error. -/
def step : State → Char → Option (List Setting × State)
  | .start, c =>
    if isSpace c then some ([], .start)
    else if c = '=' then some ([], .equals [])
    else some ([], .name [c])
  | .name read, c =>
    if c = '=' then some ([], .equals read)
    else if isSpace c then some ([], .nameEnd read)
    else some ([], .name (read ++ [c]))
  | .nameEnd name, c =>
    if isSpace c then some ([], .nameEnd name)
    else if c = '=' then some ([], .equals name)
    else none
  | .equals name, c =>
    if isSpace c then some ([], .equals name)
    else if c = '\'' then some ([], .quoted name [])
    else some (stepValue name [] c)
  | .value name read, c => some (stepValue name read c)
  | .escape name read, c => some ([], .value name (read ++ [c]))
  | .quoted name read, c =>
    if c = '\\' then some ([], .quotedEscape name read)
    else if c = '\'' then some ([(name, read)], .start)
    else some ([], .quoted name (read ++ [c]))
  | .quotedEscape name read, c => some ([], .quoted name (read ++ [c]))

/-- The setting at the end of a string. -/
def finish : State → Option (List Setting)
  | .start => some []
  | .equals name => some [(name, [])]
  | .value name read | .escape name read => some [(name, read)]
  | _ => none

/-- The settings of a text and the state after it. -/
def scan : State → List Char → Option (List Setting × State)
  | state, [] => some ([], state)
  | state, c :: rest =>
    match step state c with
    | none => none
    | some (found, next) => (scan next rest).map fun result => (found ++ result.1, result.2)

/-- The settings of a string, from a state on. -/
def settingsFrom (state : State) (text : List Char) : Option (List Setting) :=
  match scan state text with
  | none => none
  | some (found, last) => (finish last).map (found ++ ·)

/-- `PQconninfoOptions`. -/
def options : List String :=
  ["service", "user", "password", "passfile", "channel_binding", "connect_timeout", "dbname",
    "host", "hostaddr", "port", "client_encoding", "options", "application_name",
    "fallback_application_name", "keepalives", "keepalives_idle", "keepalives_interval",
    "keepalives_count", "tcp_user_timeout", "sslmode", "sslcompression", "sslcert", "sslkey",
    "sslcertmode", "sslpassword", "sslrootcert", "sslcrl", "sslcrldir", "sslsni", "requirepeer",
    "require_auth", "ssl_min_protocol_version", "ssl_max_protocol_version", "gssencmode",
    "krbsrvname", "gsslib", "gssdelegation", "replication", "target_session_attrs",
    "load_balance_hosts"]

/-- The settings of a connection string, which ends at a null character; `none` is an
error. -/
def settings (text : List Char) : Option (List Setting) :=
  match settingsFrom .start (text.takeWhile (· ≠ '\x00')) with
  | none => none
  | some found =>
    if found.all fun setting => String.ofList setting.1 ∈ options then some found else none

/-- The value of an option: the last one counts. -/
def valueOf (found : List Setting) (name : String) : Option (List Char) :=
  (found.reverse.find? fun setting => setting.1 = name.toList).map (·.2)

/-! ## Scanning -/

variable {state : State} {text rest : List Char} {found : List Setting}

theorem scan_cons (state : State) (c : Char) (rest : List Char) :
    scan state (c :: rest) = (step state c).bind fun first =>
      (scan first.2 rest).map fun result => (first.1 ++ result.1, result.2) := by
  rw [scan]
  cases step state c <;> rfl

theorem scan_append (state : State) (text rest : List Char) :
    scan state (text ++ rest) = (scan state text).bind fun first =>
      (scan first.2 rest).map fun result => (first.1 ++ result.1, result.2) := by
  induction text generalizing state with
  | nil =>
    show scan state rest = (scan state rest).map fun result => ([] ++ result.1, result.2)
    cases scan state rest <;> rfl
  | cons c text ih =>
    rw [List.cons_append, scan_cons, scan_cons]
    cases step state c with
    | none => rfl
    | some first =>
      simp only [Option.bind_some, ih]
      cases scan first.2 text with
      | none => rfl
      | some second =>
        simp only [Option.bind_some, Option.map_some]
        cases scan second.2 rest with
        | none => rfl
        | some third => simp

/-! ## Lengths -/

/-- The character has to be escaped in a value that is not quoted. -/
def needsEscape (c : Char) : Bool := isSpace c || c = '\\'

/-- A value is plain when nothing in it has to be escaped. -/
def isPlain (value : List Char) : Bool := !value.any needsEscape

/-- What a value costs beyond its length. -/
def excess (value : List Char) : ℕ := if isPlain value then 0 else 1

/-- The least length of a setting in a string, with the blank after it. -/
def weight (setting : Setting) : ℕ :=
  setting.1.length + setting.2.length + 2 + excess setting.2

/-- The least length of what a state has read. -/
def State.pending : State → ℕ
  | .name read => read.length
  | .nameEnd key => key.length
  | .equals key => key.length + 1
  | .value key read => key.length + 1 + read.length + excess read
  | .escape key read => key.length + 2 + read.length + excess read
  | _ => 0

/-- The state is not one of a quoted value. -/
def State.bare : State → Bool
  | .quoted _ _ | .quotedEscape _ _ => false
  | _ => true

theorem excess_le (value : List Char) : excess value ≤ 1 := by
  unfold excess
  split <;> omega

theorem isPlain_append (value : List Char) (c : Char) :
    isPlain (value ++ [c]) = (isPlain value && !needsEscape c) := by
  simp [isPlain]

theorem excess_append_of_not {value : List Char} {c : Char} (hc : needsEscape c = false) :
    excess (value ++ [c]) = excess value := by
  unfold excess
  rw [isPlain_append, hc, Bool.not_false, Bool.and_true]

/-- A character of a bare value costs no more than itself. -/
theorem weight_stepValue (name read : List Char) (c : Char) :
    ((stepValue name read c).1.map weight).sum + (stepValue name read c).2.pending ≤
      name.length + 1 + read.length + excess read + 1 := by
  unfold stepValue
  split_ifs with hspace hslash
  · simp only [List.map_cons, List.map_nil, List.sum_cons, List.sum_nil, weight, State.pending]
    omega
  · simp only [List.map_nil, List.sum_nil, State.pending]
    omega
  · have hc : needsEscape c = false := by simp [needsEscape, hspace, hslash]
    simp only [List.map_nil, List.sum_nil, State.pending, excess_append_of_not hc,
      List.length_append, List.length_singleton]
    omega

theorem bare_stepValue (name read : List Char) (c : Char) :
    (stepValue name read c).2.bare = true := by
  unfold stepValue
  split_ifs <;> rfl

/-- A character that is no quote costs no more than itself. -/
theorem weight_step {c : Char} {next : State} (hstep : step state c = some (found, next))
    (hquote : c ≠ '\'') (hbare : state.bare = true) :
    (found.map weight).sum + next.pending ≤ state.pending + 1 ∧ next.bare = true := by
  cases state with
  | quoted name read => cases hbare
  | quotedEscape name read => cases hbare
  | start =>
    simp only [step] at hstep
    split_ifs at hstep <;> cases hstep <;> simp [State.pending, State.bare]
  | name read =>
    simp only [step] at hstep
    split_ifs at hstep <;> cases hstep <;> simp [State.pending, State.bare]
  | nameEnd name =>
    simp only [step] at hstep
    split_ifs at hstep <;> cases hstep <;> simp [State.pending, State.bare]
  | equals name =>
    simp only [step, if_neg hquote] at hstep
    split at hstep
    · cases hstep
      simp [State.pending, State.bare]
    · have hpair : stepValue name [] c = (found, next) := Option.some_inj.mp hstep
      have hvalue := weight_stepValue name [] c
      have hnext := bare_stepValue name [] c
      rw [hpair] at hvalue hnext
      exact ⟨hvalue, hnext⟩
  | value name read =>
    have hpair : stepValue name read c = (found, next) := Option.some_inj.mp hstep
    have hvalue := weight_stepValue name read c
    have hnext := bare_stepValue name read c
    rw [hpair] at hvalue hnext
    exact ⟨hvalue, hnext⟩
  | escape name read =>
    cases hstep
    have hexcess := excess_le (read ++ [c])
    simp only [List.map_nil, List.sum_nil, State.pending, State.bare, List.length_append,
      List.length_singleton, and_true]
    omega

theorem weight_scan {last : State} (hscan : scan state text = some (found, last))
    (hquote : '\'' ∉ text) (hbare : state.bare = true) :
    (found.map weight).sum + last.pending ≤ state.pending + text.length ∧ last.bare = true := by
  induction text generalizing state found last with
  | nil =>
    cases hscan
    exact ⟨by simp, hbare⟩
  | cons c rest ih =>
    rw [scan_cons] at hscan
    obtain ⟨⟨first, next⟩, hstep, hrest⟩ := Option.bind_eq_some_iff.mp hscan
    obtain ⟨⟨others, last'⟩, hothers, hresult⟩ := Option.map_eq_some_iff.mp hrest
    obtain ⟨hfound, hlast⟩ := Prod.mk.inj hresult
    dsimp only at hothers hfound
    have hc : c ≠ '\'' := fun hc => hquote (hc ▸ List.mem_cons_self)
    have hrest : '\'' ∉ rest := fun hrest => hquote (List.mem_cons_of_mem _ hrest)
    obtain ⟨hfirst, hnext⟩ := weight_step hstep hc hbare
    obtain ⟨htail, hend⟩ := ih hothers hrest hnext
    rw [← hfound, ← hlast]
    simp only [List.map_append, List.sum_append, List.length_cons]
    exact ⟨by omega, hend⟩

/-- Without quotes, what is read is no longer than the text, and shorter by every value
that has been escaped. -/
theorem weight_settingsFrom (hfound : settingsFrom .start text = some found)
    (hquote : '\'' ∉ text) : (found.map weight).sum ≤ text.length + 1 := by
  unfold settingsFrom at hfound
  split at hfound
  · cases hfound
  next before last hscan =>
    obtain ⟨ended, hended, hall⟩ := Option.map_eq_some_iff.mp hfound
    have hlast : (ended.map weight).sum ≤ last.pending + 1 := by
      unfold finish at hended
      split at hended
      · cases hended
        simp
      next name =>
        cases hended
        simp [weight, State.pending, excess, isPlain]
      · cases hended
        simp [weight, State.pending]
        omega
      · cases hended
        simp [weight, State.pending]
        omega
      · cases hended
    have hbefore := (weight_scan hscan hquote rfl).1
    have hstart : State.start.pending = 0 := rfl
    rw [← hall]
    simp only [List.map_append, List.sum_append]
    omega

/-! ## Values of options -/

theorem mem_of_valueOf {name : String} {value : List Char} (hvalue : valueOf found name = some value) :
    (name.toList, value) ∈ found := by
  obtain ⟨setting, hfind, hsame⟩ := Option.map_eq_some_iff.mp hvalue
  have hmem := List.mem_reverse.mp (List.mem_of_find?_eq_some hfind)
  have hname : setting.1 = name.toList :=
    of_decide_eq_true (List.find?_some (p := fun other : Setting => other.1 = name.toList) hfind)
  rw [← hname, ← hsame]
  exact hmem

/-- The settings at the end of a string count. -/
theorem valueOf_append (before others : List Setting) (name : String) :
    valueOf (before ++ others) name = (valueOf others name).or (valueOf before name) := by
  unfold valueOf
  rw [List.reverse_append, List.find?_append]
  cases others.reverse.find? fun setting => setting.1 = name.toList <;> rfl

/-- The settings that a string gives are no longer than what stands before its end. -/
theorem weight_settings {values : List Setting} (hsettings : settings text = some found)
    (hquote : '\'' ∉ text) (hnodup : values.Nodup) (hvalues : values ⊆ found) :
    (values.map weight).sum ≤ (text.takeWhile (· ≠ '\x00')).length + 1 := by
  unfold settings at hsettings
  split at hsettings
  · cases hsettings
  next all hall =>
    split at hsettings
    · have hbare : '\'' ∉ text.takeWhile (· ≠ '\x00') := fun hmem =>
        hquote ((List.takeWhile_prefix _).subset hmem)
      have hweight := weight_settingsFrom hall hbare
      rw [Option.some_inj.mp hsettings] at hweight
      obtain ⟨chosen, hperm, hsublist⟩ := List.Nodup.subperm hnodup hvalues
      have hsame := (hperm.map weight).sum_eq
      have hle : (chosen.map weight).sum ≤ (found.map weight).sum :=
        (hsublist.map weight).sum_le_sum fun _ _ => Nat.zero_le _
      omega
    · cases hsettings

/-! ## Plain settings -/

theorem settingsFrom_append (state : State) (text rest : List Char) :
    settingsFrom state (text ++ rest) = (scan state text).bind fun first =>
      (settingsFrom first.2 rest).map (first.1 ++ ·) := by
  unfold settingsFrom
  rw [scan_append]
  cases scan state text with
  | none => rfl
  | some first =>
    simp only [Option.bind_some]
    cases scan first.2 rest with
    | none => rfl
    | some second =>
      simp only [Option.map_some]
      cases finish second.2 with
      | none => rfl
      | some ended => simp

theorem not_needsEscape {value : List Char} (hplain : isPlain value = true) {c : Char}
    (hc : c ∈ value) : isSpace c = false ∧ c ≠ '\\' := by
  have hnone : value.any needsEscape = false := by simpa [isPlain] using hplain
  have hescape := List.any_eq_false.mp hnone c hc
  simpa [needsEscape] using hescape

theorem scan_value (name read : List Char) {value : List Char} (hplain : isPlain value = true) :
    scan (.value name read) value = some ([], .value name (read ++ value)) := by
  induction value generalizing read with
  | nil => simp [scan]
  | cons c rest ih =>
    obtain ⟨hspace, hslash⟩ := not_needsEscape hplain List.mem_cons_self
    have hrest : isPlain rest = true := by
      simp only [isPlain, List.any_cons, Bool.not_or, Bool.and_eq_true] at hplain
      exact hplain.2
    rw [scan_cons, step, stepValue, hspace, if_neg Bool.false_ne_true, if_neg hslash]
    simp only [Option.bind_some, ih _ hrest, Option.map_some, List.append_assoc,
      List.singleton_append, List.nil_append]

/-- A plain value is read as it stands. -/
theorem scan_equals (name : List Char) {value : List Char} (hplain : isPlain value = true)
    (hvalue : value ≠ []) (hquote : '\'' ∉ value) :
    scan (.equals name) value = some ([], .value name value) := by
  cases value with
  | nil => exact absurd rfl hvalue
  | cons c rest =>
    obtain ⟨hspace, hslash⟩ := not_needsEscape hplain List.mem_cons_self
    have hc : c ≠ '\'' := fun hc => hquote (hc ▸ List.mem_cons_self)
    have hfirst : step (.equals name) c = step (.value name []) c := by
      simp only [step, stepValue, hspace, if_neg hc, if_neg hslash, Bool.false_eq_true, if_false]
    rw [scan_cons, hfirst, ← scan_cons]
    exact scan_value name [] hplain

/-- The text names an option. -/
def IsName (name : List Char) : Prop := scan .start (name ++ ['=']) = some ([], .equals name)

theorem settingsFrom_equals {name value : List Char} (hname : IsName name) (rest : List Char)
    (hplain : isPlain value = true) (hvalue : value ≠ []) (hquote : '\'' ∉ value) :
    settingsFrom .start (name ++ '=' :: (value ++ rest)) = settingsFrom (.value name value) rest := by
  have happend : name ++ '=' :: (value ++ rest) = (name ++ ['=']) ++ (value ++ rest) := by simp
  rw [happend, settingsFrom_append, hname]
  simp only [Option.bind_some, List.nil_append, Option.map_id_fun']
  rw [settingsFrom_append, scan_equals name hplain hvalue hquote]
  simp only [Option.bind_some, List.nil_append, Option.map_id_fun', id]

theorem settingsFrom_cons {name value : List Char} (hname : IsName name) (rest : List Char)
    (hplain : isPlain value = true) (hvalue : value ≠ []) (hquote : '\'' ∉ value) :
    settingsFrom .start (name ++ '=' :: (value ++ ' ' :: rest)) =
      (settingsFrom .start rest).map ((name, value) :: ·) := by
  rw [settingsFrom_equals hname _ hplain hvalue hquote]
  exact settingsFrom_append (.value name value) [' '] rest

theorem settingsFrom_singleton {name value : List Char} (hname : IsName name)
    (hplain : isPlain value = true) (hvalue : value ≠ []) (hquote : '\'' ∉ value) :
    settingsFrom .start (name ++ '=' :: value) = some [(name, value)] := by
  have hlast := settingsFrom_equals hname [] hplain hvalue hquote
  rw [List.append_nil] at hlast
  exact hlast

/-- The character neither ends a name or a value nor changes how the next one is read. -/
def isLetter (c : Char) : Bool := !isSpace c && c ≠ '=' && c ≠ '\\' && c ≠ '\''

/-- A letter leaves the reader in a name or in a value. -/
theorem step_letter {c : Char} {next : State} (hstep : step state c = some (found, next))
    (hc : isLetter c = true) (hbare : state.bare = true) :
    (∃ read, next = .name read) ∨ ∃ name read, next = .value name read := by
  obtain ⟨⟨⟨hspace, hequals⟩, hslash⟩, hquote⟩ :
      ((isSpace c = false ∧ c ≠ '=') ∧ c ≠ '\\') ∧ c ≠ '\'' := by
    simpa [isLetter] using hc
  have hvalue : ∀ name read, stepValue name read c = ([], .value name (read ++ [c])) := by
    intro name read
    rw [stepValue, hspace, if_neg Bool.false_ne_true, if_neg hslash]
  cases state with
  | quoted name read => cases hbare
  | quotedEscape name read => cases hbare
  | start =>
    simp only [step, hspace, if_neg hequals, Bool.false_eq_true, if_false] at hstep
    cases hstep
    exact Or.inl ⟨_, rfl⟩
  | name read =>
    simp only [step, hspace, if_neg hequals, Bool.false_eq_true, if_false] at hstep
    cases hstep
    exact Or.inl ⟨_, rfl⟩
  | nameEnd name =>
    simp only [step, hspace, if_neg hequals, Bool.false_eq_true, if_false] at hstep
    cases hstep
  | equals name =>
    simp only [step, hspace, if_neg hquote, hvalue, Bool.false_eq_true, if_false] at hstep
    cases hstep
    exact Or.inr ⟨_, _, rfl⟩
  | value name read =>
    simp only [step, hvalue] at hstep
    cases hstep
    exact Or.inr ⟨_, _, rfl⟩
  | escape name read =>
    cases hstep
    exact Or.inr ⟨_, _, rfl⟩

/-- After a letter and a blank, a letter begins a setting. -/
theorem exists_settingsFrom_of_letter {c d : Char}
    (hfound : settingsFrom .start (text ++ c :: ' ' :: d :: rest) = some found)
    (hquote : '\'' ∉ text) (hc : isLetter c = true) (hd : isLetter d = true) :
    ∃ before others, settingsFrom .start (d :: rest) = some others ∧ found = before ++ others := by
  rw [settingsFrom_append] at hfound
  obtain ⟨⟨first, state⟩, hfirst, hafter⟩ := Option.bind_eq_some_iff.mp hfound
  obtain ⟨others, hothers, hall⟩ := Option.map_eq_some_iff.mp hafter
  have hbare := (weight_scan hfirst hquote rfl).2
  rw [show c :: ' ' :: d :: rest = [c] ++ ([' '] ++ (d :: rest)) from rfl,
    settingsFrom_append] at hothers
  obtain ⟨⟨second, state'⟩, hsecond, hrest⟩ := Option.bind_eq_some_iff.mp hothers
  obtain ⟨others', hothers', hsum⟩ := Option.map_eq_some_iff.mp hrest
  rw [scan_cons] at hsecond
  obtain ⟨⟨found', next⟩, hstep, hend⟩ := Option.bind_eq_some_iff.mp hsecond
  have hnext : next = state' := by
    obtain ⟨result, hresult, hpair⟩ := Option.map_eq_some_iff.mp hend
    cases hresult
    exact (Prod.mk.inj hpair).2
  dsimp only at hothers' hstep
  rw [← hnext] at hothers'
  rcases step_letter hstep hc hbare with ⟨read, hname⟩ | ⟨name, read, hvalue⟩
  · -- A name cannot be followed by a blank and another letter.
    obtain ⟨⟨⟨hspace, hequals⟩, -⟩, -⟩ :
        ((isSpace d = false ∧ d ≠ '=') ∧ d ≠ '\\') ∧ d ≠ '\'' := by
      simpa [isLetter] using hd
    rw [hname, settingsFrom_append] at hothers'
    have hnone : settingsFrom (.nameEnd read) (d :: rest) = none := by
      unfold settingsFrom
      rw [scan_cons, step, hspace, if_neg Bool.false_ne_true, if_neg hequals]
      rfl
    have hblank : scan (.name read) [' '] = some ([], .nameEnd read) := rfl
    rw [hblank, Option.bind_some, hnone] at hothers'
    cases hothers'
  · rw [hvalue, settingsFrom_append] at hothers'
    have hblank : scan (.value name read) [' '] = some ([(name, read)], .start) := rfl
    rw [hblank, Option.bind_some] at hothers'
    obtain ⟨last, hlast, hjoined⟩ := Option.map_eq_some_iff.mp hothers'
    exact ⟨first ++ (second ++ [(name, read)]), last, hlast, by
      rw [← hall, ← hsum, ← hjoined]
      simp⟩

end DbtCraft.Sql.Conninfo

/-
# The conversations of a project

`list_sessions` and `read_history` of `app/sessions.py` on the logs of a project as they lie on
disk. A log that is written with `zstd` is decoded with replacement, a plain one strictly; what
a line is read into may be any JSON value, of which the fields are taken without looking first.
-/

import DbtCraft.Agent.SessionLog
import DbtCraft.Python.Text
import DbtCraft.Python.TextReader
import Mathlib.Data.List.ReduceOption

namespace DbtCraft.Agent.SessionList

open DbtCraft.Python DbtCraft.Python.TextReader

universe uα uγ

/-! ## Logs -/

/-- What opening, reading or decoding a log raises. -/
inductive ReadFailure
  | osError
  | zstdError
  | unicodeDecodeError
  deriving DecidableEq

/-- A log on disk: what the reads of it return, decompressed, and what one raises behind them. -/
structure Log where
  chunks : List (List UInt8)
  failure : Option ReadFailure
  /-- `int(path.stat().st_mtime * 1000)`. -/
  updatedAt : ℤ

/-- A directory of a session. -/
structure SessionDir where
  name : String
  /-- `session.jsonl`. -/
  plain : Option Log
  /-- `session.jsonl.zstd`. -/
  zstd : Option Log

/-- `_log_path`; whether the log is compressed. -/
def logPath (directory : SessionDir) : Option (Bool × Log) :=
  match directory.plain with
  | some log => some (false, log)
  | none => directory.zstd.map (true, ·)

/-- `_open_log`. -/
def openLog (compressed : Bool) (log : Log) : Handle ReadFailure :=
  readText compressed .unicodeDecodeError log.chunks log.failure

/-- What `json.loads` returns or raises. -/
inductive Loaded
  | value (value : Value)
  | /-- A `JSONDecodeError`. -/
    torn
  | /-- Anything else, as a `RecursionError` or a `ValueError` about digits. -/
    raises (raised : Raised)

/-- The language: `json.loads` and `str`. -/
structure Builtins where
  loads : List Char → Loaded
  shown : Value → String

variable (builtins : Builtins)

/-- `line.strip()`. -/
def strippedLine (line : List Char) : List Char := (strip (String.ofList line)).toList

/-- The events of the lines, of which so many are read, in front of a failure. -/
def eventsFrom (failure : Option ReadFailure) : ℕ → List (List Char) → Except Raised (List Value)
  | _, [] =>
    match failure with
    | none | some .osError | some .zstdError => .ok []
    | some .unicodeDecodeError => .error (.valueError "codec can't decode bytes")
  | 0, _ :: _ => .ok []
  | budget + 1, line :: rest =>
    if strippedLine line = [] then eventsFrom failure budget rest
    else
      match builtins.loads (strippedLine line) with
      | .value event => (eventsFrom failure budget rest).map (event :: ·)
      | .torn => .ok []
      | .raises raised => .error raised

/-- `_read_events`. -/
def readEvents (file : Bool × Log) : Except Raised (List Value) :=
  let handle := openLog file.1 file.2
  eventsFrom builtins handle.failure maxEvents handle.lines

/-! ## Titles -/

/-- The first result of a search through a list. -/
def firstSome {α : Type uα} {β : Type} (search : α → Except Raised (Option β)) :
    List α → Except Raised (Option β)
  | [] => .ok none
  | item :: rest => do
    match ← search item with
    | some found => return some found
    | none => firstSome search rest

/-- `piece in value`. -/
def containsText (piece : String) : Value → Except Raised Bool
  | .str text => .ok (contains piece text)
  | .list items => .ok (items.any (·.isText piece))
  | .dict items => .ok (items.any (·.1.isText piece))
  | _ => .error .typeError

/-- A character at which `splitlines` cuts. -/
def isLineEnd (c : Char) : Bool :=
  let code := c.toNat
  (0xA ≤ code && code ≤ 0xD) || (0x1C ≤ code && code ≤ 0x1E) || code = 0x85 || code = 0x2028 ||
    code = 0x2029

/-- `text.strip().splitlines()[0][:80]`. -/
def firstLine : Value → Except Raised String
  | .str text =>
    match (strip text).toList with
    | [] => .error .indexError
    | c :: rest => .ok (String.ofList (((c :: rest).takeWhile (!isLineEnd ·)).take 80))
  | _ => .error .attributeError

/-- The title that a `session/title` has. -/
def ownTitle (event : Value) : Except Raised (Option String) := do
  if (← event.get "type").isText "session/title" then
    let title ← (orEmpty (← event.get "data")).get "title"
    return if title.truthy then some (strOf builtins.shown title) else none
  else return none

/-- The title that a block of a prompt gives. -/
def blockTitle (block : Value) : Except Raised (Option String) := do
  let text ← if block.isDict then block.get "text" else pure .none
  if !text.truthy then return none
  else if ← containsText "system-reminder" text then return none
  else if ← containsText "runtime context" text then return none
  else return some (← firstLine text)

/-- A source is a user. -/
def isUser (kind : Value) : Bool :=
  match kind with
  | .none => true
  | kind => kind.isText "user" || kind.isText "sdk"

/-- The title that a `user/message` gives. -/
def promptTitle (event : Value) : Except Raised (Option String) := do
  if (← event.get "type").isText "user/message" then
    let data := orEmpty (← event.get "data")
    let source := orEmpty (← data.get "source")
    if isUser (← source.get "kind") then
      firstSome blockTitle (← ((← data.get "content").orElse (.list [])).walked)
    else return none
  else return none

/-- `_title`. -/
def title (events : List Value) : Except Raised String := do
  match ← firstSome (ownTitle builtins) events with
  | some title => return title
  | none => return (← firstSome promptTitle events).getD "New conversation"

/-! ## The list and the history -/

structure Session where
  sessionId : String
  title : String
  updatedAt : ℤ
  turns : ℕ

/-- The turns of a conversation. -/
def turns (events : List Value) : Except Raised ℕ := do
  return ((← events.mapM fun event => event.get "type").filter (·.isText "turn/start")).length

/-- What is listed of a directory. -/
def sessionOf (directory : SessionDir) : Except Raised (Option Session) :=
  match logPath directory with
  | none => .ok none
  | some file => do
    let events ← readEvents builtins file
    if events.isEmpty then return none
    else
      let title ← title builtins events
      return some ⟨directory.name, title, file.2.updatedAt, ← turns events⟩

/-- `list_sessions`. -/
def listSessions (directories : List SessionDir) : Except Raised (List Session) := do
  let sessions ← directories.mapM (sessionOf builtins)
  return sessions.reduceOption.mergeSort fun own other => other.updatedAt ≤ own.updatedAt

/-- `read_history`. -/
def historyOf (directories : List SessionDir) (sessionId : String) :
    Except Raised (List PanelEvent) :=
  match (directories.find? (·.name = sessionId)).bind logPath with
  | none => .ok []
  | some file => do readHistory builtins.shown (← readEvents builtins file)

/-! ## What may stand in a log -/

/-- `value.get(key)` of an object. -/
def field (value : Value) (key : String) : Value :=
  match value with
  | .dict items => (Value.item items (.str key)).getD .none
  | _ => .none

/-- `event.get("data") or \x7b\x7d`. -/
def dataOf (event : Value) : Value := orEmpty (field event "data")

/-- `data.get("source") or \x7b\x7d`. -/
def sourceOf (data : Value) : Value := orEmpty (field data "source")

/-- A value is empty, or a loop can walk it. -/
def isWalkable (value : Value) : Bool :=
  match value.orElse (.list []) with
  | .list _ | .dict _ | .str _ => true
  | _ => false

/-- The blocks of a message. -/
def blocksIn (data : Value) : List Value :=
  match ((field data "content").orElse (.list [])).walked with
  | .ok blocks => blocks
  | .error _ => []

/-- The event is of a type. -/
def hasType (text : String) (event : Value) : Bool := (field event "type").isText text

/-- A message of a user, of which the fields are objects or empty. -/
def isLegiblePrompt (event : Value) : Bool :=
  (dataOf event).isDict && (sourceOf (dataOf event)).isDict &&
    (!isUser (field (sourceOf (dataOf event)) "kind") ||
      isWalkable (field (dataOf event) "content"))

/-- A text marks itself as injected. -/
def isMarked : Value → Bool
  | .str text => contains "system-reminder" text || contains "runtime context" text
  | .list items => items.any (·.isText "system-reminder") || items.any (·.isText "runtime context")
  | .dict items => items.any (·.1.isText "system-reminder") ||
      items.any (·.1.isText "runtime context")
  | _ => false

/-- The text of a block. -/
def textOfBlock (block : Value) : Value := if block.isDict then field block "text" else .none

/-- A text without a title in it. -/
def textSkips (text : Value) : Bool := !text.truthy || isMarked text

/-- A text that is not blank. -/
def textNames : Value → Bool
  | .str text => !textSkips (.str text) && strip text ≠ ""
  | _ => false

def blockSkips (block : Value) : Bool := textSkips (textOfBlock block)

def blockNames (block : Value) : Bool := textNames (textOfBlock block)

/-- An event without a title in it. -/
def titleSkips (event : Value) : Bool :=
  !hasType "session/title" event ||
    (dataOf event).isDict && !(field (dataOf event) "title").truthy

/-- An event with a title. -/
def titleNames (event : Value) : Bool :=
  (dataOf event).isDict && (field (dataOf event) "title").truthy

/-- An event without a prompt that could be a title. -/
def promptSkips (event : Value) : Bool :=
  !hasType "user/message" event || isLegiblePrompt event &&
    (!isUser (field (sourceOf (dataOf event)) "kind") ||
      (blocksIn (dataOf event)).all blockSkips)

/-- An event with a prompt that is one. -/
def promptNames (event : Value) : Bool :=
  isLegiblePrompt event &&
    ((blocksIn (dataOf event)).dropWhile blockSkips).head?.any blockNames

/-- A conversation that can be listed: its events are objects, the first that says something of
the title has one, and without one so has the first prompt. -/
structure Listable (events : List Value) : Prop where
  objects : ∀ event ∈ events, event.isDict = true
  titles : ∀ event ∈ (events.dropWhile titleSkips).head?, titleNames event = true
  prompts : events.all titleSkips = true →
    ∀ event ∈ (events.dropWhile promptSkips).head?, promptNames event = true

/-- An object, or a value that stands for none. -/
def isObjectField (value : Value) (key : String) : Bool := (orEmpty (field value key)).isDict

/-- The data of an event of a kind has the fields that `normalize` takes. -/
def isLegibleData (kind data : Value) : Bool :=
  if kind.isText "assistant/chunk" then
    let chunk := orEmpty (field data "chunk")
    data.isDict && chunk.isDict && (!(field chunk "type").isText "usage" ||
      isObjectField chunk "usage")
  else if kind.isText "assistant/message" then
    data.isDict && isWalkable (field
      (if (field data "message").isDict then field data "message" else data) "content")
  else if kind.isText "tool/call" || kind.isText "todo/write" then data.isDict
  else if kind.isText "tool/result" then
    let message := orEmpty (field data "message")
    data.isDict && message.isDict && isWalkable (field message "content") &&
      isObjectField message "source"
  else if kind.isText "turn/end" then
    let reason := orEmpty (field data "reason")
    data.isDict && reason.isDict && isObjectField reason "error"
  else true

/-- An event that can be replayed. -/
def isLegible (event : Value) : Bool :=
  event.isDict && if hasType "user/message" event then isLegiblePrompt event
    else isLegibleData (field event "type") (dataOf event)

/-! ### The lines -/

/-- What is read of a line ends the reading, or an exception does. -/
def endsAt (line : List Char) : Bool :=
  strippedLine line ≠ [] && match builtins.loads (strippedLine line) with
    | .value _ => false
    | .torn | .raises _ => true

/-- `json.loads` raises what is no `JSONDecodeError`. -/
def interrupts (line : List Char) : Bool :=
  match builtins.loads (strippedLine line) with
  | .raises _ => true
  | .value _ | .torn => false

/-- The lines of a log, as many as are read, from the first that is no event. -/
def linesBehind (handle : Handle ReadFailure) : List (List Char) :=
  (handle.lines.take maxEvents).dropWhile (!endsAt builtins ·)

/-- A log that is read without an exception: the first line that is no event is torn, and if
there is none, the text is decoded to its end. -/
structure Decodable (handle : Handle ReadFailure) : Prop where
  lines : ∀ line ∈ (linesBehind builtins handle).head?, interrupts builtins line = false
  text : linesBehind builtins handle = [] → handle.lines.length ≤ maxEvents →
    handle.failure ≠ some .unicodeDecodeError

/-- The event of a line. -/
def eventOn (line : List Char) : Option Value :=
  if strippedLine line = [] then none
  else
    match builtins.loads (strippedLine line) with
    | .value event => some event
    | .torn | .raises _ => none

/-- The events of a log, as many as are read, up to the first line that is none. -/
def eventsIn (handle : Handle ReadFailure) : List Value :=
  ((handle.lines.take maxEvents).takeWhile (!endsAt builtins ·)).filterMap (eventOn builtins)

/-- **The history of a project breaks nothing.** -/
def NeverBreaks (directories : List SessionDir) : Prop :=
  (∃ sessions, listSessions builtins directories = .ok sessions ∧
    ∀ directory ∈ directories, ∀ file ∈ logPath directory, ∀ events,
      readEvents builtins file = .ok events → events ≠ [] →
      ∃ session ∈ sessions, session.sessionId = directory.name ∧
        session.updatedAt = file.2.updatedAt) ∧
  ∀ sessionId, ∃ history, historyOf builtins directories sessionId = .ok history

/-- Every log can be read and listed, and the one that is shown under a name replayed. -/
structure AllLegible (directories : List SessionDir) : Prop where
  decodable : ∀ directory ∈ directories, ∀ file ∈ logPath directory,
    Decodable builtins (openLog file.1 file.2)
  listable : ∀ directory ∈ directories, ∀ file ∈ logPath directory,
    Listable (eventsIn builtins (openLog file.1 file.2))
  replayable : ∀ sessionId, ∀ directory ∈ directories.find? (·.name = sessionId),
    ∀ file ∈ logPath directory, ∀ event ∈ eventsIn builtins (openLog file.1 file.2),
      isLegible event = true

/-! ## Reading a log -/

section

variable {builtins} {failure : Option ReadFailure} {lines : List (List Char)} {budget : ℕ}

theorem eventsFrom_nil (htext : failure ≠ some .unicodeDecodeError) :
    eventsFrom builtins failure budget [] = .ok [] := by
  unfold eventsFrom
  split
  · rfl
  · rfl
  · rfl
  · exact absurd rfl htext

theorem eventsFrom_undecodable :
    ∃ raised, eventsFrom builtins (some .unicodeDecodeError) budget [] = .error raised := by
  rw [eventsFrom]
  exact ⟨_, rfl⟩

/-- A line that is an event, or blank. -/
theorem eventsFrom_cons {line : List Char} {rest : List (List Char)}
    (hends : endsAt builtins line = false) :
    eventsFrom builtins failure (budget + 1) (line :: rest) =
      (eventsFrom builtins failure budget rest).map ((eventOn builtins line).toList ++ ·) := by
  rw [eventsFrom, eventOn]
  split
  · cases eventsFrom builtins failure budget rest <;> rfl
  next hline =>
    rw [endsAt, decide_eq_true hline, Bool.true_and] at hends
    cases hloads : builtins.loads (strippedLine line) with
    | value event => rfl
    | torn =>
      rw [hloads] at hends
      cases hends
    | raises raised =>
      rw [hloads] at hends
      cases hends

/-- A line that is neither. -/
theorem eventsFrom_of_endsAt {line : List Char} {rest : List (List Char)}
    (hends : endsAt builtins line = true) :
    (interrupts builtins line = false ∧
      eventsFrom builtins failure (budget + 1) (line :: rest) = .ok []) ∨
    (interrupts builtins line = true ∧
      ∃ raised, eventsFrom builtins failure (budget + 1) (line :: rest) = .error raised) := by
  rw [endsAt, Bool.and_eq_true, decide_eq_true_eq] at hends
  rw [eventsFrom, if_neg hends.1, interrupts]
  cases hloads : builtins.loads (strippedLine line) with
  | value event =>
    rw [hloads] at hends
    cases hends.2
  | torn => exact .inl ⟨rfl, rfl⟩
  | raises raised => exact .inr ⟨rfl, raised, rfl⟩

/-- The reading of lines, of which so many are read. -/
theorem eventsFrom_spec :
    (((∀ line ∈ ((lines.take budget).dropWhile (!endsAt builtins ·)).head?,
        interrupts builtins line = false) ∧
      ((lines.take budget).dropWhile (!endsAt builtins ·) = [] → lines.length ≤ budget →
        failure ≠ some .unicodeDecodeError)) →
      eventsFrom builtins failure budget lines = .ok
        (((lines.take budget).takeWhile (!endsAt builtins ·)).filterMap (eventOn builtins))) ∧
    (¬ ((∀ line ∈ ((lines.take budget).dropWhile (!endsAt builtins ·)).head?,
        interrupts builtins line = false) ∧
      ((lines.take budget).dropWhile (!endsAt builtins ·) = [] → lines.length ≤ budget →
        failure ≠ some .unicodeDecodeError)) →
      ∃ raised, eventsFrom builtins failure budget lines = .error raised) := by
  induction lines generalizing budget with
  | nil =>
    by_cases htext : failure = some .unicodeDecodeError
    · subst htext
      exact ⟨fun h => absurd rfl (h.2 (by simp) (Nat.zero_le _)), fun _ => eventsFrom_undecodable⟩
    · refine ⟨fun _ => by rw [eventsFrom_nil htext]; simp, fun hnot => ?_⟩
      exact absurd ⟨by simp, fun _ _ => htext⟩ hnot
  | cons line rest ih =>
    cases budget with
    | zero => exact ⟨fun _ => rfl, fun hnot => absurd (by simp) hnot⟩
    | succ budget =>
      rw [List.take_succ_cons]
      cases hends : endsAt builtins line with
      | false =>
        rw [List.dropWhile_cons_of_pos (by simp [hends]),
          List.takeWhile_cons_of_pos (by simp [hends]), eventsFrom_cons hends,
          List.length_cons, Nat.add_le_add_iff_right]
        apply And.intro
        · intro h
          rw [ih.1 h]
          cases hevent : eventOn builtins line with
          | none => rw [List.filterMap_cons_none hevent]; rfl
          | some event => rw [List.filterMap_cons_some hevent]; rfl
        · intro hnot
          obtain ⟨raised, hraised⟩ := ih.2 hnot
          exact ⟨raised, by rw [hraised]; rfl⟩
      | true =>
        rw [List.dropWhile_cons_of_neg (by simp [hends]),
          List.takeWhile_cons_of_neg (by simp [hends])]
        rcases @eventsFrom_of_endsAt _ failure budget _ rest hends with
          ⟨hquiet, hread⟩ | ⟨hloud, hread⟩
        · exact ⟨fun _ => hread, fun hnot => absurd ⟨by simpa using hquiet, by simp⟩ hnot⟩
        · refine ⟨fun h => ?_, fun _ => hread⟩
          have hquiet := h.1 line rfl
          rw [hloud] at hquiet
          cases hquiet

variable {file : Bool × Log}

/-- **A log is read** if and only if it is decodable. -/
theorem readEvents_of_decodable (hdecodable : Decodable builtins (openLog file.1 file.2)) :
    readEvents builtins file = .ok (eventsIn builtins (openLog file.1 file.2)) :=
  eventsFrom_spec.1 ⟨hdecodable.lines, hdecodable.text⟩

theorem decodable_of_readEvents {events : List Value}
    (hread : readEvents builtins file = .ok events) :
    Decodable builtins (openLog file.1 file.2) := by
  by_contra hnot
  obtain ⟨raised, hraised⟩ := eventsFrom_spec.2 fun h => hnot ⟨h.1, h.2⟩
  cases hread.symm.trans hraised

end

/-! ## Taking fields -/

section

variable {value : Value} {key : String}

theorem get_of_isDict (hdict : value.isDict = true) : value.get key = .ok (field value key) := by
  cases value with
  | dict items => rfl
  | _ => cases hdict

theorem get_of_not_isDict (hdict : value.isDict = false) :
    value.get key = .error .attributeError := by
  cases value with
  | dict items => cases hdict
  | _ => rfl

/-- A field is taken of an object only. -/
theorem isOk_bind_get {α : Type} {next : Value → Except Raised α} :
    (value.get key >>= next).isOk = (value.isDict && (next (field value key)).isOk) := by
  cases hdict : value.isDict with
  | true =>
    rw [get_of_isDict hdict]
    rfl
  | false =>
    rw [get_of_not_isDict hdict]
    rfl

theorem isOk_get : (value.get key).isOk = value.isDict := by
  cases hdict : value.isDict with
  | true =>
    rw [get_of_isDict hdict]
    rfl
  | false =>
    rw [get_of_not_isDict hdict]
    rfl

theorem isOk_iff {α : Type} {result : Except Raised α} :
    result.isOk = true ↔ ∃ found, result = .ok found := by
  cases result with
  | ok found => simp [Except.isOk, Except.toBool]
  | error raised => simp [Except.isOk, Except.toBool]

theorem isOk_map {α β : Type} {result : Except Raised α} {f : α → β} :
    (result >>= fun found => pure (f found)).isOk = result.isOk := by
  cases result <;> rfl

theorem ok_bind {α β : Type} {found : α} {next : α → Except Raised β} :
    (Except.ok found >>= next) = next found := rfl

theorem isOk_bind {α β : Type} {first : Except Raised α} {next : α → Except Raised β}
    (hok : (first >>= next).isOk = true) :
    ∃ found, first = .ok found ∧ (next found).isOk = true := by
  cases first with
  | error raised => cases hok
  | ok found => exact ⟨found, rfl, hok⟩

theorem isOk_pure {α : Type} {found : α} : (pure found : Except Raised α).isOk = true := rfl

/-- What can be walked is walked. -/
theorem walked_eq (hwalk : isWalkable value = true) :
    ∃ items, (value.orElse (.list [])).walked = .ok items := by
  unfold isWalkable at hwalk
  split at hwalk
  next items hvalue => exact ⟨items, by rw [hvalue]; rfl⟩
  next items hvalue => exact ⟨_, by rw [hvalue]; rfl⟩
  next text hvalue => exact ⟨_, by rw [hvalue]; rfl⟩
  · cases hwalk

theorem walked_of_not (hwalk : isWalkable value = false) :
    (value.orElse (.list [])).walked = .error .typeError := by
  unfold isWalkable at hwalk
  split at hwalk
  · cases hwalk
  · cases hwalk
  · cases hwalk
  next hlist hdict hstr =>
    cases hvalue : value.orElse (.list []) with
    | list items => exact absurd hvalue (hlist items)
    | dict items => exact absurd hvalue (hdict items)
    | str text => exact absurd hvalue (hstr text)
    | _ => rfl

theorem isOk_bind_walked {α : Type} {next : List Value → Except Raised α}
    (hnext : ∀ items, (next items).isOk = true) :
    ((value.orElse (.list [])).walked >>= next).isOk = isWalkable value := by
  cases hwalk : isWalkable value with
  | true =>
    obtain ⟨items, hitems⟩ := walked_eq hwalk
    rw [hitems]
    exact hnext items
  | false =>
    rw [walked_of_not hwalk]
    rfl

/-! ### The blocks -/

theorem blocksOf_eq (kind : String) (blocks : List Value) : ∃ chosen,
    blocksOf kind blocks = .ok chosen ∧ ∀ block ∈ chosen, block.isDict = true := by
  induction blocks with
  | nil => exact ⟨[], rfl, nofun⟩
  | cons block rest ih =>
    obtain ⟨others, hothers, hdicts⟩ := ih
    cases hdict : block.isDict with
    | false =>
      refine ⟨others, ?_, hdicts⟩
      rw [blocksOf, hdict, hothers]
      rfl
    | true =>
      cases hkind : (field block "type").isText kind with
      | false =>
        refine ⟨others, ?_, hdicts⟩
        rw [blocksOf, hdict, hothers, if_pos rfl, get_of_isDict hdict]
        simp only [bind, Except.bind, pure, Except.pure, hkind]
        rfl
      | true =>
        refine ⟨block :: others, ?_, List.forall_mem_cons.mpr ⟨hdict, hdicts⟩⟩
        rw [blocksOf, hdict, hothers, if_pos rfl, get_of_isDict hdict]
        simp only [bind, Except.bind, pure, Except.pure, hkind]
        rfl

/-- Every item of a list passes. -/
theorem isOk_mapM_iff {α : Type uα} {β : Type} {f : α → Except Raised β} {items : List α} :
    (items.mapM f).isOk = true ↔ ∀ item ∈ items, (f item).isOk = true := by
  induction items with
  | nil => exact ⟨fun _ => nofun, fun _ => rfl⟩
  | cons item rest ih =>
    rw [List.forall_mem_cons, ← ih, List.mapM_cons]
    cases f item with
    | error raised => exact ⟨nofun, fun h => h.1⟩
    | ok found =>
      rw [ok_bind, isOk_map]
      exact ⟨fun h => ⟨rfl, h⟩, fun h => h.2⟩

theorem mem_mapM {α : Type uα} {β : Type} {f : α → Except Raised β} {items : List α}
    {results : List β} {item : α} {found : β} (hall : items.mapM f = .ok results)
    (hitem : item ∈ items) (hfound : f item = .ok found) : found ∈ results := by
  induction items generalizing results with
  | nil => cases hitem
  | cons first rest ih =>
    rw [List.mapM_cons] at hall
    obtain ⟨own, hown, hall⟩ := bind_eq_ok.mp hall
    obtain ⟨others, hothers, hall⟩ := bind_eq_ok.mp hall
    cases hall
    rcases List.mem_cons.mp hitem with rfl | hrest
    · cases hfound.symm.trans hown
      exact List.mem_cons_self
    · exact List.mem_cons_of_mem _ (ih hothers hrest)

/-- Every field of objects is taken. -/
theorem mapM_get {α : Type} {take : Value → Except Raised α} {blocks : List Value}
    (htake : ∀ block, (take block).isOk = block.isDict)
    (hdicts : ∀ block ∈ blocks, block.isDict = true) : (blocks.mapM take).isOk = true :=
  isOk_mapM_iff.mpr fun block hblock => (htake block).trans (hdicts block hblock)

/-- What is made of every field of objects. -/
theorem isOk_mapM {α : Type} {make : Value → α} {blocks : List Value}
    (hdicts : ∀ block ∈ blocks, block.isDict = true) :
    (blocks.mapM fun block : Value => do return make (← block.get key)).isOk = true := by
  apply mapM_get (fun block => ?_) hdicts
  rw [isOk_bind_get]
  exact Bool.and_true _

theorem isOk_blockText {shown : Value → String} (content : Value) :
    (blockText shown content).isOk = isWalkable content := by
  unfold blockText
  apply isOk_bind_walked
  intro items
  obtain ⟨chosen, hchosen, hdicts⟩ := blocksOf_eq "text" items
  rw [hchosen]
  exact isOk_map.trans (isOk_mapM hdicts)

/-! ### The history -/

variable {shown : Value → String} {data event kind : Value}

theorem isOk_ite {α : Type} {c : Prop} [Decidable c] {first second : Except Raised α} :
    (if c then first else second).isOk = if c then first.isOk else second.isOk :=
  apply_ite Except.isOk c first second

theorem isOk_chunkEvent : (chunkEvent data).isOk =
    (data.isDict && (orEmpty (field data "chunk")).isDict &&
      (!(field (orEmpty (field data "chunk")) "type").isText "usage" ||
        isObjectField (orEmpty (field data "chunk")) "usage")) := by
  simp only [chunkEvent, isOk_bind_get, isOk_ite, isOk_pure, ite_self, isObjectField, Bool.and_self,
    Bool.and_true]
  cases hchunk : (orEmpty (field data "chunk")).isDict with
  | false => simp
  | true => cases (field (orEmpty (field data "chunk")) "type").isText "usage" <;> simp

theorem isOk_messageEvent : (messageEvent shown data).isOk =
    (data.isDict && isWalkable (field
      (if (field data "message").isDict then field data "message" else data) "content")) := by
  simp only [messageEvent, isOk_bind_get, isOk_map, isOk_blockText]
  cases hdata : data.isDict with
  | false => simp
  | true => cases hmessage : (field data "message").isDict <;> simp [hmessage, hdata]

theorem isOk_resultEvent : (resultEvent data).isOk =
    (data.isDict && (orEmpty (field data "message")).isDict &&
      isWalkable (field (orEmpty (field data "message")) "content") &&
      isObjectField (orEmpty (field data "message")) "source") := by
  unfold resultEvent isObjectField
  rw [isOk_bind_get, isOk_bind_get, Bool.and_assoc, Bool.and_assoc]
  cases hwalk : isWalkable (field (orEmpty (field data "message")) "content") with
  | false =>
    rw [walked_of_not hwalk]
    rfl
  | true =>
    obtain ⟨blocks, hblocks⟩ := walked_eq hwalk
    obtain ⟨results, hresults, hdicts⟩ := blocksOf_eq "tool-result" blocks
    have herrors : (results.mapM fun result : Value => result.get "isError").isOk = true :=
      mapM_get (fun _ => isOk_get) hdicts
    obtain ⟨errors, herrors⟩ := isOk_iff.mp herrors
    rw [hblocks, ok_bind, hresults, ok_bind, isOk_bind_get, isOk_bind_get, Bool.and_self_left,
      Bool.true_and]
    apply congrArg
    apply congrArg
    apply (congrArg _ ?_).trans (Bool.and_true _)
    dsimp only
    split
    · rw [herrors]
      rfl
    · split
      · rw [herrors]
        rfl
      · rw [get_of_isDict (hdicts _ List.mem_cons_self), herrors]
        rfl

theorem isOk_turnEndEvent : (turnEndEvent data).isOk =
    (data.isDict && (orEmpty (field data "reason")).isDict &&
      isObjectField (orEmpty (field data "reason")) "error") := by
  simp only [turnEndEvent, isOk_bind_get, isOk_pure, isObjectField, Bool.and_true]
  cases (orEmpty (field data "reason")).isDict <;> simp

theorem isOk_eventOf : (eventOf shown kind data).isOk = isLegibleData kind data := by
  unfold eventOf isLegibleData
  dsimp only
  split
  · exact isOk_chunkEvent
  · split
    · exact isOk_messageEvent
    · cases hcall : kind.isText "tool/call" with
      | true =>
        simp only [if_true, Bool.true_or, isOk_bind_get, isOk_pure, Bool.and_true, Bool.and_self]
      | false =>
        rw [if_neg Bool.false_ne_true, Bool.false_or]
        by_cases htodo : kind.isText "todo/write" = true
        · have hresult : kind.isText "tool/result" = false := by
            cases kind with
            | str own =>
              have hown : own = "todo/write" := of_decide_eq_true htodo
              rw [hown]
              rfl
            | _ => rfl
          rw [hresult, if_neg Bool.false_ne_true, if_pos htodo, if_pos htodo]
          simp only [isOk_bind_get, isOk_pure, Bool.and_true, Bool.and_self]
        · rw [if_neg htodo, if_neg htodo]
          split
          · exact isOk_resultEvent
          · split
            · exact isOk_turnEndEvent
            · rfl

theorem orEmpty_of_isDict (hdict : value.isDict = true) : orEmpty value = value := by
  cases value with
  | dict items => cases items <;> rfl
  | _ => cases hdict

theorem isOk_userText (hdict : event.isDict = true) :
    (userText shown event).isOk = isLegiblePrompt event := by
  have hcontent : ((field event "data").orElse (.dict [])).isDict = true →
      (do return some (← blockText shown (← (orEmpty (field event "data")).get "content")) :
        Except Raised (Option String)).isOk =
      isWalkable (field (orEmpty (field event "data")) "content") := by
    intro hdata
    have hdata : (orEmpty (field event "data")).isDict = true := hdata
    rw [isOk_bind_get, isOk_map, isOk_blockText, hdata, Bool.true_and]
  unfold userText isLegiblePrompt sourceOf dataOf
  rw [isOk_bind_get, isOk_bind_get, hdict, Bool.true_and, isOk_bind_get, Bool.and_assoc]
  cases hdata : (orEmpty (field event "data")).isDict with
  | false => rfl
  | true =>
    apply congrArg
    apply congrArg
    generalize field (orEmpty (field (orEmpty (field event "data")) "source")) "kind" = kind
    have hown := hcontent hdata
    cases kind with
    | none => exact hown
    | _ =>
      dsimp only
      rw [isOk_ite, hown]
      unfold isUser
      dsimp only
      split
      next huser =>
        rw [huser]
        rfl
      next hother =>
        rw [Bool.eq_false_iff.mpr hother]
        rfl

/-- **An event is replayed** if and only if it is legible. -/
theorem isOk_replayed : (replayed shown event).isOk = isLegible event := by
  unfold replayed isLegible
  rw [isOk_bind_get]
  cases hdict : event.isDict with
  | false => rfl
  | true =>
    apply congrArg
    unfold hasType
    split
    · exact isOk_map.trans (isOk_userText hdict)
    · have hbody : (bodyOf shown event).isOk =
          isLegibleData (field event "type") (dataOf event) := by
        unfold bodyOf
        rw [orEmpty_of_isDict hdict, isOk_bind_get, isOk_bind_get, hdict, Bool.true_and,
          Bool.true_and, isOk_eventOf]
        rfl
      rw [normalize_logged, isOk_map, ← hbody]
      cases bodyOf shown event <;> rfl

/-- A history is read if and only if each of its events is legible. -/
theorem isOk_readHistory {events : List Value} :
    (readHistory shown events).isOk = true ↔ ∀ event ∈ events, isLegible event = true := by
  unfold readHistory
  rw [isOk_map, isOk_mapM_iff]
  simp only [isOk_replayed]

end

/-! ## Looking for a title -/

/-- What a search makes of an item. -/
structure Searches {α : Type uα} {β : Type} (search : α → Except Raised (Option β))
    (skips names : α → Bool) (item : α) : Prop where
  skipped : skips item = true → search item = .ok none
  named : skips item = false → names item = true → ∃ found, search item = .ok (some found)
  refused : skips item = false → names item = false → ∃ raised, search item = .error raised

section

variable {α : Type uα} {β : Type} {search : α → Except Raised (Option β)} {skips names : α → Bool}
  {items : List α}

theorem Searches.onto {γ : Type uγ} {own : α} {other : γ} {further : γ → Except Raised (Option β)}
    {skipped named : γ → Bool} (hsearches : Searches further skipped named other)
    (hsearch : search own = further other) (hskips : skips own = skipped other)
    (hnames : names own = named other) : Searches search skips names own where
  skipped := by
    rw [hsearch, hskips]
    exact hsearches.skipped
  named := by
    rw [hsearch, hskips, hnames]
    exact hsearches.named
  refused := by
    rw [hsearch, hskips, hnames]
    exact hsearches.refused

theorem Searches.isOk_eq {item : α} (hsearches : Searches search skips names item) :
    (search item).isOk = (skips item || names item) := by
  cases hskips : skips item with
  | true =>
    rw [hsearches.skipped hskips]
    rfl
  | false =>
    cases hnames : names item with
    | true =>
      obtain ⟨found, hfound⟩ := hsearches.named hskips hnames
      rw [hfound]
      rfl
    | false =>
      obtain ⟨raised, hraised⟩ := hsearches.refused hskips hnames
      rw [hraised]
      rfl

/-- The first item that is not skipped decides. -/
theorem searches_firstSome (hsearches : ∀ item ∈ items, Searches search skips names item) :
    Searches (firstSome search) (·.all skips)
      (fun items => (items.dropWhile skips).head?.any names) items := by
  induction items with
  | nil => exact ⟨fun _ => rfl, nofun, nofun⟩
  | cons item rest ih =>
    obtain ⟨hitem, hrest⟩ := List.forall_mem_cons.mp hsearches
    cases hskips : skips item with
    | true =>
      have hsame : firstSome search (item :: rest) = firstSome search rest := by
        rw [firstSome, hitem.skipped hskips]
        rfl
      refine (ih hrest).onto hsame ?_ ?_
      · rw [List.all_cons, hskips, Bool.true_and]
      · rw [List.dropWhile_cons_of_pos hskips]
    | false =>
      refine ⟨fun hall => ?_, fun _ hnames => ?_, fun _ hnames => ?_⟩
      · simp [hskips] at hall
      · rw [List.dropWhile_cons_of_neg (by simp [hskips])] at hnames
        obtain ⟨found, hfound⟩ := hitem.named hskips hnames
        exact ⟨found, by rw [firstSome, hfound]; rfl⟩
      · rw [List.dropWhile_cons_of_neg (by simp [hskips])] at hnames
        obtain ⟨raised, hraised⟩ := hitem.refused hskips hnames
        exact ⟨raised, by rw [firstSome, hraised]; rfl⟩

end

section

variable {block event : Value}

/-- What is made of the text of a block. -/
def textTitle (text : Value) : Except Raised (Option String) := do
  if !text.truthy then return none
  else if ← containsText "system-reminder" text then return none
  else if ← containsText "runtime context" text then return none
  else return some (← firstLine text)

theorem blockTitle_eq : blockTitle block = textTitle (textOfBlock block) := by
  unfold blockTitle textTitle textOfBlock
  cases hdict : block.isDict with
  | false => rfl
  | true =>
    rw [if_pos rfl, if_pos rfl, get_of_isDict hdict]
    rfl

theorem firstLine_str (text : String) :
    (strip text ≠ "" → ∃ line, firstLine (.str text) = .ok line) ∧
      (strip text = "" → firstLine (.str text) = .error .indexError) := by
  unfold firstLine
  dsimp only
  apply And.intro
  · intro hne
    cases hchars : (strip text).toList with
    | nil => exact absurd (String.toList_injective hchars) hne
    | cons c rest => exact ⟨_, rfl⟩
  · intro hempty
    rw [hempty]
    rfl

theorem textTitle_of_not_truthy {text : Value} (hnot : text.truthy = false) :
    textTitle text = .ok none := by
  unfold textTitle
  rw [hnot]
  rfl

/-- What is no text, and none of the marks, has no first line. -/
theorem searches_marks {text : Value} {marks : String → Bool}
    (htruthy : text.truthy = true)
    (hcontains : ∀ piece, containsText piece text = .ok (marks piece))
    (hmarked : isMarked text = (marks "system-reminder" || marks "runtime context"))
    (hline : (∃ line, textNames text = !isMarked text ∧ firstLine text = .ok line) ∨
      ∃ raised, textNames text = false ∧ firstLine text = .error raised) :
    Searches textTitle textSkips textNames text := by
  have hskips : textSkips text = isMarked text := by rw [textSkips, htruthy]; rfl
  have hfound : isMarked text = true → textTitle text = .ok none := by
    intro hmark
    rw [hmarked, Bool.or_eq_true] at hmark
    unfold textTitle
    rw [htruthy, hcontains, hcontains]
    cases hfirst : marks "system-reminder" with
    | true => rfl
    | false =>
      rw [hfirst] at hmark
      rw [hmark.resolve_left Bool.false_ne_true]
      rfl
  have hnone : isMarked text = false → textTitle text = (firstLine text).map some := by
    intro hmark
    rw [hmarked, Bool.or_eq_false_iff] at hmark
    unfold textTitle
    rw [htruthy, hcontains, hcontains, hmark.1, hmark.2]
    cases firstLine text <;> rfl
  refine ⟨fun h => hfound (hskips ▸ h), fun h hnames => ?_, fun h hnames => ?_⟩
  · rw [hskips] at h
    rcases hline with ⟨line, -, hline⟩ | ⟨raised, hnot, -⟩
    · exact ⟨line, by rw [hnone h, hline]; rfl⟩
    · rw [hnot] at hnames
      cases hnames
  · rw [hskips] at h
    rcases hline with ⟨line, hsome, -⟩ | ⟨raised, -, hline⟩
    · rw [hsome, h] at hnames
      cases hnames
    · exact ⟨raised, by rw [hnone h, hline]; rfl⟩

theorem searches_textTitle (text : Value) : Searches textTitle textSkips textNames text := by
  cases htruthy : text.truthy with
  | false =>
    have hskips : textSkips text = true := by rw [textSkips, htruthy]; rfl
    exact ⟨fun _ => textTitle_of_not_truthy htruthy, fun h => absurd hskips (by simp [h]),
      fun h => absurd hskips (by simp [h])⟩
  | true =>
    cases text with
    | str text =>
      refine @searches_marks _ (contains · text) htruthy (fun _ => rfl) rfl ?_
      have hskips : textSkips (.str text) = isMarked (.str text) := by
        rw [textSkips, htruthy]
        rfl
      by_cases hblank : strip text = ""
      · refine .inr ⟨_, ?_, (firstLine_str text).2 hblank⟩
        rw [textNames, decide_eq_false (not_not.mpr hblank), Bool.and_false]
      · obtain ⟨line, hline⟩ := (firstLine_str text).1 hblank
        refine .inl ⟨line, ?_, hline⟩
        rw [textNames, decide_eq_true hblank, Bool.and_true, hskips]
    | list items => exact searches_marks htruthy (fun _ => rfl) rfl (.inr ⟨_, rfl, rfl⟩)
    | dict items => exact searches_marks htruthy (fun _ => rfl) rfl (.inr ⟨_, rfl, rfl⟩)
    | _ =>
      refine ⟨fun hskips => ?_, fun _ => nofun, fun _ _ => ⟨.typeError, ?_⟩⟩
      · rw [textSkips, htruthy] at hskips
        cases hskips
      · unfold textTitle
        rw [htruthy]
        rfl

theorem searches_blockTitle : Searches blockTitle blockSkips blockNames block :=
  (searches_textTitle (textOfBlock block)).onto blockTitle_eq rfl rfl

theorem searches_ownTitle (builtins : Builtins) (hdict : event.isDict = true) :
    Searches (ownTitle builtins) titleSkips titleNames event := by
  have htitle : ownTitle builtins event =
      if hasType "session/title" event then
        (dataOf event).get "title" >>= fun title =>
          pure (if title.truthy then some (strOf builtins.shown title) else none)
      else .ok none := by
    unfold ownTitle
    rw [get_of_isDict hdict, get_of_isDict hdict]
    rfl
  unfold titleSkips titleNames
  cases htype : hasType "session/title" event with
  | false =>
    rw [htype] at htitle
    exact ⟨fun _ => htitle, by simp [htype], by simp [htype]⟩
  | true =>
    rw [htype, if_pos rfl] at htitle
    cases hdata : (dataOf event).isDict with
    | false =>
      rw [get_of_not_isDict hdata] at htitle
      exact ⟨by simp [htype, hdata], by simp [hdata], fun _ _ => ⟨_, htitle⟩⟩
    | true =>
      rw [get_of_isDict hdata, ok_bind] at htitle
      cases htruthy : (field (dataOf event) "title").truthy with
      | false =>
        rw [htruthy] at htitle
        exact ⟨fun _ => htitle, by simp [htype, hdata, htruthy],
          by simp [htype, hdata, htruthy]⟩
      | true =>
        rw [htruthy] at htitle
        exact ⟨by simp [htype, hdata, htruthy], fun _ _ => ⟨_, htitle⟩,
          by simp [hdata, htruthy]⟩

theorem searches_promptTitle (hdict : event.isDict = true) :
    Searches promptTitle promptSkips promptNames event := by
  have hprompt : promptTitle event =
      if hasType "user/message" event then
        (dataOf event).get "source" >>= fun source => (orEmpty source).get "kind" >>= fun kind =>
          if isUser kind then
            (dataOf event).get "content" >>= fun content =>
              (content.orElse (.list [])).walked >>= fun blocks => firstSome blockTitle blocks
          else .ok none
      else .ok none := by
    unfold promptTitle
    rw [get_of_isDict hdict, get_of_isDict hdict]
    rfl
  unfold promptSkips promptNames isLegiblePrompt
  cases htype : hasType "user/message" event with
  | false =>
    rw [htype] at hprompt
    exact ⟨fun _ => hprompt, by simp [htype], by simp [htype]⟩
  | true =>
    rw [htype, if_pos rfl] at hprompt
    cases hdata : (dataOf event).isDict with
    | false =>
      rw [get_of_not_isDict hdata] at hprompt
      exact ⟨by simp [htype, hdata], by simp [hdata], fun _ _ => ⟨_, hprompt⟩⟩
    | true =>
      have hsource : (orEmpty (field (dataOf event) "source")) = sourceOf (dataOf event) := rfl
      rw [get_of_isDict hdata, ok_bind, hsource] at hprompt
      cases hdict : (sourceOf (dataOf event)).isDict with
      | false =>
        rw [get_of_not_isDict hdict] at hprompt
        exact ⟨by simp [htype, hdict], by simp [hdict], fun _ _ => ⟨_, hprompt⟩⟩
      | true =>
        rw [get_of_isDict hdict, ok_bind] at hprompt
        cases huser : isUser (field (sourceOf (dataOf event)) "kind") with
        | false =>
          rw [huser] at hprompt
          exact ⟨fun _ => hprompt, by simp [hdata, hdict, huser],
            by simp [hdata, hdict, huser]⟩
        | true =>
          rw [huser, if_pos rfl, get_of_isDict hdata, ok_bind] at hprompt
          cases hwalk : isWalkable (field (dataOf event) "content") with
          | false =>
            rw [walked_of_not hwalk] at hprompt
            exact ⟨by simp [htype, huser, hwalk], by simp [huser, hwalk],
              fun _ _ => ⟨_, hprompt⟩⟩
          | true =>
            obtain ⟨blocks, hblocks⟩ := walked_eq hwalk
            have hin : blocksIn (dataOf event) = blocks := by rw [blocksIn, hblocks]
            rw [hblocks, ok_bind] at hprompt
            refine (searches_firstSome fun block _ =>
              searches_blockTitle).onto hprompt ?_ ?_
            · simp [htype, hdata, hdict, huser, hwalk, hin]
            · simp [hdata, hdict, huser, hwalk, hin]

/-- What is not skipped, if there is anything, begins with what is named. -/
theorem head_dropWhile_iff {α : Type uα} {skips names : α → Bool} {items : List α} :
    (items.all skips || (items.dropWhile skips).head?.any names) = true ↔
      ∀ item ∈ (items.dropWhile skips).head?, names item = true := by
  have hall : items.all skips = true ↔ items.dropWhile skips = [] := by
    rw [List.all_eq_true, List.dropWhile_eq_nil_iff]
  rw [Bool.or_eq_true, hall]
  cases items.dropWhile skips with
  | nil => simp
  | cons first others => simp

/-- A title is found if and only if the first events that say something of it are legible. -/
theorem isOk_title {builtins : Builtins} {events : List Value}
    (hdicts : ∀ event ∈ events, event.isDict = true) :
    (title builtins events).isOk = true ↔
      (∀ event ∈ (events.dropWhile titleSkips).head?, titleNames event = true) ∧
        (events.all titleSkips = true →
          ∀ event ∈ (events.dropWhile promptSkips).head?, promptNames event = true) := by
  have hown := searches_firstSome fun event hevent =>
    searches_ownTitle builtins (hdicts event hevent)
  have hprompts := searches_firstSome fun event hevent => searches_promptTitle (hdicts event hevent)
  rw [← head_dropWhile_iff, ← head_dropWhile_iff]
  unfold title
  cases hskips : events.all titleSkips with
  | true =>
    have hfirst : firstSome (ownTitle builtins) events = .ok none := hown.skipped hskips
    rw [hfirst, ok_bind]
    dsimp only
    rw [isOk_map, hprompts.isOk_eq]
    simp
  | false =>
    cases hnames : (events.dropWhile titleSkips).head?.any titleNames with
    | true =>
      obtain ⟨found, hfirst⟩ := hown.named hskips hnames
      rw [hfirst]
      simp [ok_bind, isOk_pure]
    | false =>
      obtain ⟨raised, hfirst⟩ := hown.refused hskips hnames
      rw [hfirst]
      exact ⟨nofun, fun h => absurd h.1 (by simp)⟩

theorem isOk_turns {events : List Value} :
    (turns events).isOk = true ↔ ∀ event ∈ events, event.isDict = true := by
  unfold turns
  rw [isOk_map, isOk_mapM_iff]
  simp only [isOk_get]

/-- What is listed of the events of a log. -/
theorem listable_iff (builtins : Builtins) {events : List Value} :
    ((title builtins events).isOk = true ∧ (turns events).isOk = true) ↔ Listable events := by
  rw [isOk_turns]
  apply Iff.intro
  · intro ⟨htitle, hdicts⟩
    obtain ⟨htitles, hprompts⟩ := (isOk_title hdicts).mp htitle
    exact ⟨hdicts, htitles, hprompts⟩
  · intro hlistable
    exact ⟨(isOk_title hlistable.objects).mpr ⟨hlistable.titles, hlistable.prompts⟩,
      hlistable.objects⟩

end

/-! ## The history of a project -/

section

variable {builtins : Builtins} {directories : List SessionDir} {directory : SessionDir}
  {file : Bool × Log}

/-- What is listed of a log that can be listed. -/
theorem sessionOf_of_listable (hpath : logPath directory = some file)
    (hdecodable : Decodable builtins (openLog file.1 file.2))
    (hlistable : Listable (eventsIn builtins (openLog file.1 file.2))) :
    (eventsIn builtins (openLog file.1 file.2) = [] ∧ sessionOf builtins directory = .ok none) ∨
    ∃ title turns, sessionOf builtins directory =
      .ok (some ⟨directory.name, title, file.2.updatedAt, turns⟩) := by
  obtain ⟨htitle, hturns⟩ := (listable_iff builtins).mpr hlistable
  obtain ⟨title, htitle⟩ := isOk_iff.mp htitle
  obtain ⟨turns, hturns⟩ := isOk_iff.mp hturns
  unfold sessionOf
  rw [hpath]
  dsimp only
  rw [readEvents_of_decodable hdecodable, ok_bind]
  cases hevents : eventsIn builtins (openLog file.1 file.2) with
  | nil => exact .inl ⟨rfl, rfl⟩
  | cons event rest =>
    rw [hevents] at htitle hturns
    refine .inr ⟨title, turns, ?_⟩
    rw [List.isEmpty_cons, if_neg Bool.false_ne_true, htitle, ok_bind, hturns]
    rfl

theorem isOk_sessionOf (hpath : logPath directory = some file) :
    (sessionOf builtins directory).isOk = true ↔
      Decodable builtins (openLog file.1 file.2) ∧
        Listable (eventsIn builtins (openLog file.1 file.2)) := by
  apply Iff.intro
  · intro hok
    unfold sessionOf at hok
    rw [hpath] at hok
    dsimp only at hok
    cases hread : readEvents builtins file with
    | error raised =>
      rw [hread] at hok
      cases hok
    | ok events =>
      have hdecodable := decodable_of_readEvents hread
      have hsame : events = eventsIn builtins (openLog file.1 file.2) :=
        Except.ok.inj (hread.symm.trans (readEvents_of_decodable hdecodable))
      refine ⟨hdecodable, hsame ▸ ?_⟩
      rw [hread, ok_bind] at hok
      cases events with
      | nil => exact ⟨nofun, nofun, nofun⟩
      | cons event rest =>
        rw [List.isEmpty_cons, if_neg Bool.false_ne_true] at hok
        obtain ⟨title, htitle, hok⟩ := isOk_bind hok
        obtain ⟨turns, hturns, -⟩ := isOk_bind hok
        exact (listable_iff builtins).mp ⟨isOk_iff.mpr ⟨title, htitle⟩,
          isOk_iff.mpr ⟨turns, hturns⟩⟩
  · intro ⟨hdecodable, hlistable⟩
    rcases sessionOf_of_listable hpath hdecodable hlistable with ⟨-, hsession⟩ | ⟨_, _, hsession⟩
    · rw [hsession]
      rfl
    · rw [hsession]
      rfl

/-- The list returns if and only if every log can be read and listed. -/
theorem isOk_listSessions : (listSessions builtins directories).isOk = true ↔
    ∀ directory ∈ directories, ∀ file ∈ logPath directory,
      Decodable builtins (openLog file.1 file.2) ∧
        Listable (eventsIn builtins (openLog file.1 file.2)) := by
  unfold listSessions
  rw [isOk_map, isOk_mapM_iff]
  apply forall_congr'
  intro directory
  apply forall_congr'
  intro _
  cases hpath : logPath directory with
  | none =>
    unfold sessionOf
    rw [hpath]
    exact ⟨fun _ => nofun, fun _ => rfl⟩
  | some file => simpa using isOk_sessionOf hpath

/-- **Every readable conversation is listed.** -/
theorem listed {sessions : List Session} (hlist : listSessions builtins directories = .ok sessions)
    (hdirectory : directory ∈ directories) (hpath : logPath directory = some file)
    {events : List Value} (hread : readEvents builtins file = .ok events) (hne : events ≠ []) :
    ∃ session ∈ sessions, session.sessionId = directory.name ∧
      session.updatedAt = file.2.updatedAt := by
  have hall := isOk_listSessions.mp (isOk_iff.mpr ⟨sessions, hlist⟩)
  obtain ⟨hdecodable, hlistable⟩ := hall directory hdirectory file hpath
  have hsame : events = eventsIn builtins (openLog file.1 file.2) :=
    Except.ok.inj (hread.symm.trans (readEvents_of_decodable hdecodable))
  rcases sessionOf_of_listable hpath hdecodable hlistable with
    ⟨hempty, -⟩ | ⟨title, turns, hsession⟩
  · exact absurd (hsame.trans hempty) hne
  · unfold listSessions at hlist
    obtain ⟨found, hfound, hsorted⟩ := bind_eq_ok.mp hlist
    cases hsorted
    refine ⟨⟨directory.name, title, file.2.updatedAt, turns⟩,
      List.mem_mergeSort.mpr (List.reduceOption_mem_iff.mpr ?_), rfl, rfl⟩
    exact mem_mapM hfound hdirectory hsession

/-- **No conversation breaks the history** if and only if every log is legible. -/
theorem neverBreaks_iff_allLegible (builtins : Builtins) (directories : List SessionDir) :
    NeverBreaks builtins directories ↔ AllLegible builtins directories := by
  have hhistory : ∀ sessionId, (∀ directory ∈ directories, ∀ file ∈ logPath directory,
      Decodable builtins (openLog file.1 file.2)) →
      ((∃ history, historyOf builtins directories sessionId = .ok history) ↔
        ∀ directory ∈ directories.find? (·.name = sessionId), ∀ file ∈ logPath directory,
          ∀ event ∈ eventsIn builtins (openLog file.1 file.2), isLegible event = true) := by
    intro sessionId hdecodable
    rw [← isOk_iff]
    unfold historyOf
    cases hfind : directories.find? (·.name = sessionId) with
    | none => exact ⟨fun _ => nofun, fun _ => rfl⟩
    | some directory =>
      cases hpath : logPath directory with
      | none =>
        rw [Option.bind_some, hpath]
        refine ⟨fun _ other hother file hfile => ?_, fun _ => rfl⟩
        cases hother
        rw [hpath] at hfile
        cases hfile
      | some file =>
        have hread := readEvents_of_decodable
          (hdecodable directory (List.mem_of_find?_eq_some hfind) file hpath)
        rw [Option.bind_some, hpath]
        dsimp only
        rw [hread, ok_bind, isOk_readHistory]
        refine ⟨fun h other hother own hown => ?_, fun h => h directory rfl file hpath⟩
        cases hother
        rw [hpath] at hown
        cases hown
        exact h
  apply Iff.intro
  · intro ⟨⟨sessions, hlist, _⟩, hread⟩
    have hall := isOk_listSessions.mp (isOk_iff.mpr ⟨sessions, hlist⟩)
    have hdecodable := fun directory hdirectory file hfile =>
      (hall directory hdirectory file hfile).1
    exact ⟨hdecodable, fun directory hdirectory file hfile =>
      (hall directory hdirectory file hfile).2,
      fun sessionId => (hhistory sessionId hdecodable).mp (hread sessionId)⟩
  · intro hlegible
    have hlist : (listSessions builtins directories).isOk = true :=
      isOk_listSessions.mpr fun directory hdirectory file hfile =>
        ⟨hlegible.decodable directory hdirectory file hfile,
          hlegible.listable directory hdirectory file hfile⟩
    obtain ⟨sessions, hlist⟩ := isOk_iff.mp hlist
    exact ⟨⟨sessions, hlist, fun directory hdirectory file hfile events hread hne =>
      listed hlist hdirectory hfile hread hne⟩,
      fun sessionId => (hhistory sessionId hlegible.decodable).mpr (hlegible.replayable sessionId)⟩

end

/-- A plain log with a byte that is no UTF-8, beside a conversation that can be read. -/
theorem not_neverBreaks_of_byte : ¬ ∀ builtins directories, NeverBreaks builtins directories := by
  intro hclaim
  have hnever := hclaim ⟨fun _ => .torn, fun _ => ""⟩
    [⟨"broken", some ⟨[[0xFF]], none, 0⟩, none⟩, ⟨"empty", some ⟨[], none, 0⟩, none⟩]
  obtain ⟨sessions, hlist, -⟩ := hnever.1
  cases hlist

end DbtCraft.Agent.SessionList

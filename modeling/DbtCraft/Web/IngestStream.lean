/-
# Streaming one load in the browser

`useIngestStream` of the web client: a call of `run` or `stop`, or one turn of the event loop
in the asynchronous part of a run. A stream that was aborted is still resumed with what it was
waiting for when the answer had come before, and each run clears the controller and the flag
that they share when it unwinds. What is kept of a run carries the run that it came from.
-/

import DbtCraft.Math.Machine
import DbtCraft.Python.Text
import Mathlib.Logic.Function.Basic

namespace DbtCraft.Web.IngestStream

open DbtCraft.Math DbtCraft.Python

abbrev Text := List Char

/-! ## One stream -/

/-- What `fetch` resolves with. -/
inductive Answer
  | ok
  | /-- `!response.ok || !response.body`. -/
    refused (status : ℕ)
  deriving DecidableEq

/-- Where the asynchronous part of `run` is. -/
inductive Phase
  | /-- `getSession`. -/
    session
  | /-- `fetch`. -/
    fetching
  | answered (answer : Answer)
  | /-- `response.json()`, whose failure is ignored. -/
    errorBody (status : ℕ)
  | /-- `reader.read()`. -/
    reading
  | /-- `read` has resolved with a chunk of this text. -/
    holding (text : Text)
  | /-- `read` has resolved with the end. -/
    ended
  | /-- The `finally` block has run. -/
    finished
  deriving DecidableEq

structure Stream where
  phase : Phase := .session
  aborted : Bool := false
  buffer : Text := []
  deriving DecidableEq

/-- What a line is parsed as. -/
inductive Parsed
  | log (message : Text)
  | started (tables : List Text) (dataset : Text)
  | /-- Any other event, by its text. -/
    other (event : Text)
  | /-- A field that is read of it is not there. -/
    broken (message : Text)

/-- What `result` is set to. -/
inductive Result
  | event (event : Text)
  | error (message : Text)
  deriving DecidableEq

/-- A call of `setLogs` or `setResult` in a stream. -/
inductive Update
  | log (text : Text)
  | result (result : Result)
  deriving DecidableEq

/-- What a turn of the event loop does in a stream. -/
structure Turn where
  stream : Stream
  updates : List Update := []
  deriving DecidableEq

variable (parse : Text → Option Parsed)

/-- `Loading ${event.tables.join(", ")} into ${event.dataset}`. -/
def loadingText (tables : List Text) (dataset : Text) : Text :=
  "Loading ".toList ++ [',', ' '].intercalate tables ++ " into ".toList ++ dataset

/-- What is parsed of a line; `none` where the line is skipped. -/
def parsedOf (line : Text) : Option Parsed :=
  if "data: ".toList.isPrefixOf line then parse (line.drop 6) else none

/-- The loop over the lines of a chunk: what it sets, and the message of what it raises. -/
def readLines : List Text → List Update × Option Text
  | [] => ([], none)
  | line :: rest =>
    let later := readLines rest
    match parsedOf parse line with
    | none => later
    | some (.log message) => (.log message :: later.1, later.2)
    | some (.started tables dataset) => (.log (loadingText tables dataset) :: later.1, later.2)
    | some (.other event) => (.result (.event event) :: later.1, later.2)
    | some (.broken message) => ([], some message)

/-- The turn after a chunk. -/
def readChunk (stream : Stream) (text : Text) : Turn :=
  let lines := split '\n' (stream.buffer ++ text)
  let read := readLines parse lines.dropLast
  match read.2 with
  | none => ⟨{ stream with phase := .reading, buffer := lines.getLast?.getD [] }, read.1⟩
  | some message => ⟨{ stream with phase := .finished }, read.1 ++ [Update.result (.error message)]⟩

/-- `detail?.detail || \x60Ingest failed: ${response.status}\x60`. -/
def refusal (status : ℕ) (detail : Option Text) : Text :=
  match detail with
  | some (c :: rest) => c :: rest
  | _ => "Ingest failed: ".toList ++ (toString status).toList

/-- What happens to a stream. -/
inductive Step
  | /-- `getSession` resolves. -/
    session
  | answer (answer : Answer)
  | chunk (text : Text)
  | /-- The output ends. -/
    ended
  | /-- The continuation with what has been resolved. -/
    resume
  | /-- `response.json()` is settled, with this `detail`. -/
    detail (detail : Option Text)
  | /-- What the stream waits for was rejected, with another error than `AbortError`. -/
    fail (message : Text)
  | /-- What an aborted stream waits for is rejected with `AbortError`. -/
    abortSeen
  deriving DecidableEq

/-- A stream that waits for something that may be rejected. -/
def Phase.waits : Phase → Bool
  | .session | .fetching | .reading => true
  | _ => false

/-- The continuation of a stream. -/
def resume (stream : Stream) : Option Turn :=
  match stream.phase with
  | .answered .ok => some ⟨{ stream with phase := .reading }, []⟩
  | .answered (.refused status) => some ⟨{ stream with phase := .errorBody status }, []⟩
  | .holding text => some (readChunk parse stream text)
  | .ended => some ⟨{ stream with phase := .finished }, []⟩
  | _ => none

/-- One turn of a stream; `none` if it does not wait for this. -/
def turn (stream : Stream) : Step → Option Turn
  | .session =>
    if stream.phase = .session then some ⟨{ stream with phase := .fetching }, []⟩ else none
  | .answer answer =>
    if stream.phase = .fetching ∧ stream.aborted = false then
      some ⟨{ stream with phase := .answered answer }, []⟩
    else none
  | .chunk text =>
    if stream.phase = .reading ∧ stream.aborted = false then
      some ⟨{ stream with phase := .holding text }, []⟩
    else none
  | .ended =>
    if stream.phase = .reading ∧ stream.aborted = false then
      some ⟨{ stream with phase := .ended }, []⟩
    else none
  | .resume => resume parse stream
  | .detail detail =>
    match stream.phase with
    | .errorBody status =>
      some ⟨{ stream with phase := .finished }, [.result (.error (refusal status detail))]⟩
    | _ => none
  | .fail message =>
    if stream.phase.waits then
      some ⟨{ stream with phase := .finished }, [.result (.error message)]⟩
    else none
  | .abortSeen =>
    if stream.aborted = true ∧ (stream.phase = .fetching ∨ stream.phase = .reading) then
      some ⟨{ stream with phase := .finished }, []⟩
    else none

/-! ## The hook -/

/-- What a run has set. -/
structure Kept (α : Type) where
  run : ℕ
  value : α
  deriving DecidableEq

structure State where
  /-- How many runs were started. -/
  started : ℕ := 0
  streams : ℕ → Stream := fun _ => {}
  /-- `abortRef.current`, by the run whose controller it is. -/
  abortRef : Option ℕ := none
  running : Bool := false
  logs : List (Kept Text) := []
  result : Option (Kept Result) := none

inductive Event
  | run
  | stop
  | turn (stream : ℕ) (step : Step)
  deriving DecidableEq

namespace State

variable (state : State)

/-- `run`, up to its first `await`. -/
def run : State :=
  match state.abortRef with
  | some _ => state
  | none =>
    { started := state.started + 1
      streams := Function.update state.streams state.started {}
      abortRef := some state.started
      running := true
      logs := []
      result := none }

/-- `stop`. -/
def stop : State :=
  { state with
    streams := match state.abortRef with
      | some stream =>
        Function.update state.streams stream { state.streams stream with aborted := true }
      | none => state.streams
    abortRef := none
    running := false }

/-- A call of `setLogs` or `setResult` by a run. -/
def set (stream : ℕ) : Update → State
  | .log text => { state with logs := state.logs ++ [⟨stream, text⟩] }
  | .result result => { state with result := some ⟨stream, result⟩ }

/-- The calls of a turn. -/
def setAll (stream : ℕ) (updates : List Update) : State :=
  updates.foldl (fun state update => state.set stream update) state

/-- A turn, with the `finally` block if the stream unwinds in it. -/
def take (stream : ℕ) (turn : Turn) : State :=
  let after := state.setAll stream turn.updates
  let streams := Function.update state.streams stream turn.stream
  if turn.stream.phase = .finished then
    { after with streams := streams, abortRef := none, running := false }
  else { after with streams := streams }

end State

def step (state : State) : Event → Option State
  | .run => some state.run
  | .stop => some state.stop
  | .turn stream step =>
    if stream < state.started then (turn parse (state.streams stream) step).map (state.take stream)
    else none

def machine : Machine State Event where
  init := {}
  step := step parse

/-! ## The property -/

/-- The stream was started, was not aborted and has not ended. -/
def State.Open (state : State) (stream : ℕ) : Prop :=
  stream < state.started ∧ (state.streams stream).aborted = false ∧
    (state.streams stream).phase ≠ .finished

/-- The panel tracks the current load. -/
structure Tracks (state : State) : Prop where
  atMostOne : ∀ first second, state.Open first → state.Open second → first = second
  abortRef : ∀ stream, state.Open stream → state.abortRef = some stream
  running : state.running = true ↔ ∃ stream, state.Open stream
  logs : ∀ entry ∈ state.logs, entry.run + 1 = state.started
  result : ∀ result, state.result = some result → result.run + 1 = state.started

/-- A turn of a run that is not the last one sets nothing, and does not unwind the run while
another stream is open. -/
def Undisturbed (state : State) : Event → Prop
  | .run | .stop => True
  | .turn stream step => stream + 1 = state.started ∨
      ∀ turn, IngestStream.turn parse (state.streams stream) step = some turn →
        turn.updates = [] ∧ (turn.stream.phase = .finished → ∀ other, ¬ state.Open other)

/-! ## Turns -/

section Turns

variable {parse : Text → Option Parsed} {state next : State} {stream other : ℕ} {taken : Turn}
  {updates : List Update} {event : Event} {events : List Event}

namespace State

@[simp]
theorem setAll_nil : state.setAll stream [] = state := rfl

theorem setAll_cons {first : Update} {rest : List Update} :
    state.setAll stream (first :: rest) = (state.set stream first).setAll stream rest := rfl

/-- The calls of a turn leave what is no log and no result. -/
theorem setAll_frame : (state.setAll stream updates).started = state.started ∧
    (state.setAll stream updates).abortRef = state.abortRef ∧
    (state.setAll stream updates).running = state.running := by
  induction updates generalizing state with
  | nil => exact ⟨rfl, rfl, rfl⟩
  | cons first rest ih =>
    have hset : (state.set stream first).started = state.started ∧
        (state.set stream first).abortRef = state.abortRef ∧
        (state.set stream first).running = state.running := by
      cases first <;> exact ⟨rfl, rfl, rfl⟩
    rw [setAll_cons]
    exact ⟨ih.1.trans hset.1, ih.2.1.trans hset.2.1, ih.2.2.trans hset.2.2⟩

/-- Everything that is kept is of one run. -/
def KeptOf (state : State) (run : ℕ) : Prop :=
  (∀ entry ∈ state.logs, entry.run = run) ∧ ∀ result, state.result = some result → result.run = run

theorem KeptOf.setAll (hkept : state.KeptOf stream) : (state.setAll stream updates).KeptOf stream := by
  induction updates generalizing state with
  | nil => exact hkept
  | cons first rest ih =>
    rw [setAll_cons]
    apply ih
    cases first with
    | log text =>
      refine ⟨fun entry hentry => ?_, hkept.2⟩
      rcases List.mem_append.mp hentry with hold | hnew
      · exact hkept.1 entry hold
      · rw [List.mem_singleton.mp hnew]
    | result result =>
      refine ⟨hkept.1, fun found hfound => ?_⟩
      cases hfound
      rfl

/-- What is kept of a run stays, or is replaced by something of the run. -/
theorem setAll_keeps (hkeeps : (∃ entry ∈ state.logs, entry.run = stream) ∨
      ∃ result, state.result = some result ∧ result.run = stream) :
    (∃ entry ∈ (state.setAll stream updates).logs, entry.run = stream) ∨
      ∃ result, (state.setAll stream updates).result = some result ∧ result.run = stream := by
  induction updates generalizing state with
  | nil => exact hkeeps
  | cons first rest ih =>
    rw [setAll_cons]
    apply ih
    cases first with
    | log text =>
      exact .inl ⟨⟨stream, text⟩, List.mem_append_right _ List.mem_cons_self, rfl⟩
    | result result => exact .inr ⟨⟨stream, result⟩, rfl, rfl⟩

/-- Something is kept of a run that sets something. -/
theorem not_keptOf_setAll {run : ℕ} (hupdates : updates ≠ []) (hne : stream ≠ run) :
    ¬ (state.setAll stream updates).KeptOf run := by
  intro hkept
  cases updates with
  | nil => exact hupdates rfl
  | cons first rest =>
    rw [setAll_cons] at hkept
    have hkeeps := @setAll_keeps (state.set stream first) stream rest <| by
      cases first with
      | log text =>
        exact .inl ⟨⟨stream, text⟩, List.mem_append_right _ List.mem_cons_self, rfl⟩
      | result result => exact .inr ⟨⟨stream, result⟩, rfl, rfl⟩
    rcases hkeeps with ⟨entry, hentry, hrun⟩ | ⟨result, hresult, hrun⟩
    · exact hne (hrun.symm.trans (hkept.1 entry hentry))
    · exact hne (hrun.symm.trans (hkept.2 result hresult))

theorem take_finished (hphase : taken.stream.phase = .finished) : state.take stream taken =
    { state.setAll stream taken.updates with
      streams := Function.update state.streams stream taken.stream
      abortRef := none
      running := false } := if_pos hphase

theorem take_goes_on (hphase : taken.stream.phase ≠ .finished) : state.take stream taken =
    { state.setAll stream taken.updates with
      streams := Function.update state.streams stream taken.stream } := if_neg hphase

theorem started_take : (state.take stream taken).started = state.started := by
  by_cases hphase : taken.stream.phase = .finished
  · rw [take_finished hphase]
    exact setAll_frame.1
  · rw [take_goes_on hphase]
    exact setAll_frame.1

theorem streams_take :
    (state.take stream taken).streams = Function.update state.streams stream taken.stream := by
  by_cases hphase : taken.stream.phase = .finished
  · rw [take_finished hphase]
  · rw [take_goes_on hphase]

theorem keptOf_take {run : ℕ} : (state.take stream taken).KeptOf run ↔
    (state.setAll stream taken.updates).KeptOf run := by
  by_cases hphase : taken.stream.phase = .finished
  · rw [take_finished hphase]
    exact Iff.rfl
  · rw [take_goes_on hphase]
    exact Iff.rfl

/-- A turn leaves the other streams as they are. -/
theorem open_take_of_ne (hne : other ≠ stream) :
    (state.take stream taken).Open other ↔ state.Open other := by
  rw [Open, started_take, streams_take, Function.update_of_ne hne, Open]

/-- What is open after a turn was open before, if the turn does not undo an abort. -/
theorem open_take_self (haborted : taken.stream.aborted = (state.streams stream).aborted) :
    (state.take stream taken).Open stream ↔ stream < state.started ∧
      (state.streams stream).aborted = false ∧ taken.stream.phase ≠ .finished := by
  rw [Open, started_take, streams_take, Function.update_self, haborted]

end State

/-- A turn does not undo an abort, and a stream that has unwound takes none. -/
structure Continues (before : Stream) (taken : Turn) : Prop where
  aborted : taken.stream.aborted = before.aborted
  phase : before.phase ≠ .finished

theorem readChunk_aborted (before : Stream) (text : Text) :
    (readChunk parse before text).stream.aborted = before.aborted := by
  unfold readChunk
  dsimp only
  split <;> rfl

theorem continues_of_resume {before : Stream} (hresume : resume parse before = some taken) :
    Continues before taken := by
  unfold resume at hresume
  split at hresume
  next hphase =>
    cases hresume
    exact ⟨rfl, by rw [hphase]; nofun⟩
  next hphase =>
    cases hresume
    exact ⟨rfl, by rw [hphase]; nofun⟩
  next hphase =>
    cases hresume
    exact ⟨readChunk_aborted _ _, by rw [hphase]; nofun⟩
  next hphase =>
    cases hresume
    exact ⟨rfl, by rw [hphase]; nofun⟩
  · cases hresume

theorem continues_of_turn {before : Stream} {step : Step}
    (hturn : turn parse before step = some taken) : Continues before taken := by
  cases step with
  | session =>
    obtain ⟨hphase, hnext⟩ := Option.ite_none_right_eq_some.mp hturn
    cases hnext
    exact ⟨rfl, by rw [hphase]; nofun⟩
  | answer answer =>
    obtain ⟨hphase, hnext⟩ := Option.ite_none_right_eq_some.mp hturn
    cases hnext
    exact ⟨rfl, by rw [hphase.1]; nofun⟩
  | chunk text =>
    obtain ⟨hphase, hnext⟩ := Option.ite_none_right_eq_some.mp hturn
    cases hnext
    exact ⟨rfl, by rw [hphase.1]; nofun⟩
  | ended =>
    obtain ⟨hphase, hnext⟩ := Option.ite_none_right_eq_some.mp hturn
    cases hnext
    exact ⟨rfl, by rw [hphase.1]; nofun⟩
  | resume => exact continues_of_resume hturn
  | detail detail =>
    simp only [turn] at hturn
    split at hturn
    next hphase =>
      cases hturn
      exact ⟨rfl, by rw [hphase]; nofun⟩
    · cases hturn
  | fail message =>
    obtain ⟨hwaits, hnext⟩ := Option.ite_none_right_eq_some.mp hturn
    cases hnext
    exact ⟨rfl, fun hphase => by rw [hphase] at hwaits; cases hwaits⟩
  | abortSeen =>
    obtain ⟨⟨-, hphase⟩, hnext⟩ := Option.ite_none_right_eq_some.mp hturn
    cases hnext
    refine ⟨rfl, fun hfinished => ?_⟩
    rw [hfinished] at hphase
    exact hphase.elim nofun nofun

/-! ## What holds in an undisturbed run -/

/-- The controller is the one of the open stream, which is the last run. -/
structure Inv (state : State) : Prop where
  current : ∀ stream, state.abortRef = some stream →
    stream + 1 = state.started ∧ state.Open stream
  opened : ∀ stream, state.Open stream → state.abortRef = some stream
  running : state.running = state.abortRef.isSome
  kept : ∀ run, run + 1 = state.started → state.KeptOf run
  unused : state.started = 0 → state.logs = [] ∧ state.result = none

theorem Inv.tracks (hinv : Inv state) : Tracks state where
  atMostOne first second hfirst hsecond :=
    Option.some.inj ((hinv.opened first hfirst).symm.trans (hinv.opened second hsecond))
  abortRef := hinv.opened
  running := by
    rw [hinv.running, Option.isSome_iff_exists]
    exact ⟨fun ⟨stream, hstream⟩ => ⟨stream, (hinv.current stream hstream).2⟩,
      fun ⟨stream, hopen⟩ => ⟨stream, hinv.opened stream hopen⟩⟩
  logs entry hentry := by
    cases hstarted : state.started with
    | zero => rw [(hinv.unused hstarted).1] at hentry; cases hentry
    | succ run => rw [(hinv.kept run hstarted.symm).1 entry hentry]
  result result hresult := by
    cases hstarted : state.started with
    | zero => rw [(hinv.unused hstarted).2] at hresult; cases hresult
    | succ run => rw [(hinv.kept run hstarted.symm).2 result hresult]

theorem Tracks.keptOf {run : ℕ} (htracks : Tracks state) (hrun : run + 1 = state.started) :
    state.KeptOf run :=
  ⟨fun entry hentry => Nat.succ.inj ((htracks.logs entry hentry).trans hrun.symm),
    fun result hresult => Nat.succ.inj ((htracks.result result hresult).trans hrun.symm)⟩

theorem Inv.init : Inv (machine parse).init where
  current := nofun
  opened stream hopen := absurd hopen.1 (Nat.not_lt_zero stream)
  running := rfl
  kept := nofun
  unused _ := ⟨rfl, rfl⟩

theorem Inv.run (hinv : Inv state) : Inv state.run := by
  unfold State.run
  split
  · exact hinv
  next hnone =>
    exact
      { current := fun stream hstream => by
          cases hstream
          refine ⟨rfl, Nat.lt_succ_self _, ?_, ?_⟩
          · simp only [Function.update_self]
          · simp only [Function.update_self]
            nofun
        opened := fun stream hopen => by
          obtain ⟨hstarted, haborted, hphase⟩ := hopen
          by_cases hlast : stream = state.started
          · exact congrArg some hlast.symm
          · simp only [Function.update_of_ne hlast] at haborted hphase
            have hstill := hinv.opened stream
              ⟨Nat.lt_of_le_of_ne (Nat.le_of_lt_succ hstarted) hlast, haborted, hphase⟩
            cases hnone.symm.trans hstill
        running := rfl
        kept := fun run _ => ⟨nofun, nofun⟩
        unused := fun _ => ⟨rfl, rfl⟩ }

theorem Inv.stop (hinv : Inv state) : Inv state.stop where
  current := nofun
  opened stream hopen := by
    obtain ⟨hstarted, haborted, hphase⟩ := hopen
    unfold State.stop at haborted hphase
    cases habort : state.abortRef with
    | none =>
      rw [habort] at haborted hphase
      cases habort.symm.trans (hinv.opened stream ⟨hstarted, haborted, hphase⟩)
    | some last =>
      rw [habort] at haborted hphase
      by_cases hlast : stream = last
      · simp only [hlast, Function.update_self] at haborted
        cases haborted
      · simp only [Function.update_of_ne hlast] at haborted hphase
        have hstill := hinv.opened stream ⟨hstarted, haborted, hphase⟩
        exact absurd (Option.some.inj (hstill.symm.trans habort)) hlast
  running := rfl
  kept := hinv.kept
  unused := hinv.unused

theorem Inv.last_of_open (hinv : Inv state) (hopen : state.Open stream) :
    stream + 1 = state.started := (hinv.current stream (hinv.opened stream hopen)).1

/-- What a turn of the last run sets is of the last run. -/
theorem Inv.kept_take (hinv : Inv state) (hstream : stream < state.started)
    (hundisturbed : stream + 1 = state.started ∨ taken.updates = []) {run : ℕ}
    (hrun : run + 1 = (state.take stream taken).started) :
    (state.take stream taken).KeptOf run := by
  rw [State.started_take] at hrun
  rw [State.keptOf_take]
  rcases hundisturbed with hlast | hnone
  · obtain rfl : run = stream := Nat.succ.inj (hrun.trans hlast.symm)
    exact (hinv.kept run hrun).setAll
  · rw [hnone, State.setAll_nil]
    exact hinv.kept run hrun

theorem Inv.take_finished (hinv : Inv state) (hstream : stream < state.started)
    (hphase : taken.stream.phase = .finished)
    (haborted : taken.stream.aborted = (state.streams stream).aborted)
    (hundisturbed : stream + 1 = state.started ∨
      taken.updates = [] ∧ ∀ other, ¬ state.Open other) : Inv (state.take stream taken) where
  current := by
    rw [State.take_finished hphase]
    nofun
  opened other hopen := by
    by_cases hsame : other = stream
    · rw [hsame, State.open_take_self haborted] at hopen
      exact absurd hphase hopen.2.2
    · rw [State.open_take_of_ne hsame] at hopen
      rcases hundisturbed with hlast | ⟨-, hnone⟩
      · exact absurd (Nat.succ.inj ((hinv.last_of_open hopen).trans hlast.symm)) hsame
      · exact absurd hopen (hnone other)
  running := by
    rw [State.take_finished hphase]
    rfl
  kept run := hinv.kept_take hstream (hundisturbed.imp_right And.left)
  unused hnone := by
    rw [State.started_take] at hnone
    omega

theorem Inv.take_goes_on (hinv : Inv state) (hstream : stream < state.started)
    (hphase : taken.stream.phase ≠ .finished) (hcontinues : Continues (state.streams stream) taken)
    (hundisturbed : stream + 1 = state.started ∨ taken.updates = []) :
    Inv (state.take stream taken) := by
  have hopen (other : ℕ) : (state.take stream taken).Open other ↔ state.Open other := by
    by_cases hsame : other = stream
    · rw [hsame, State.open_take_self hcontinues.aborted, State.Open]
      exact ⟨fun h => ⟨h.1, h.2.1, hcontinues.phase⟩, fun h => ⟨h.1, h.2.1, hphase⟩⟩
    · exact State.open_take_of_ne hsame
  have habort : (state.take stream taken).abortRef = state.abortRef := by
    rw [State.take_goes_on hphase]
    exact State.setAll_frame.2.1
  have hrunning : (state.take stream taken).running = state.running := by
    rw [State.take_goes_on hphase]
    exact State.setAll_frame.2.2
  exact
    { current := fun other hother => by
        rw [hopen, State.started_take]
        exact hinv.current other (habort ▸ hother)
      opened := fun other hother => habort.trans (hinv.opened other ((hopen other).mp hother))
      running := by rw [hrunning, habort, hinv.running]
      kept := fun run => hinv.kept_take hstream hundisturbed
      unused := fun hnone => by
        rw [State.started_take] at hnone
        omega }

theorem Inv.step (hinv : Inv state) (hundisturbed : Undisturbed parse state event)
    (hstep : step parse state event = some next) : Inv next := by
  cases event with
  | run =>
    cases hstep
    exact hinv.run
  | stop =>
    cases hstep
    exact hinv.stop
  | turn stream step =>
    obtain ⟨hstream, hmap⟩ := Option.ite_none_right_eq_some.mp hstep
    obtain ⟨taken, hturn, rfl⟩ := Option.map_eq_some_iff.mp hmap
    have hcontinues := continues_of_turn hturn
    have hquiet : stream + 1 = state.started ∨ taken.updates = [] ∧
        (taken.stream.phase = .finished → ∀ other, ¬ state.Open other) :=
      hundisturbed.imp_right fun h => h taken hturn
    by_cases hphase : taken.stream.phase = .finished
    · exact hinv.take_finished hstream hphase hcontinues.aborted
        (hquiet.imp_right fun h => ⟨h.1, h.2 hphase⟩)
    · exact hinv.take_goes_on hstream hphase hcontinues (hquiet.imp_right And.left)

/-- **The panel tracks the current load** in every state of a run of which no stopped load sets
something, or unwinds while another one is open. -/
theorem tracks_of_undisturbed (hpath : (machine parse).Path (Undisturbed parse) events state) :
    Tracks state :=
  (hpath.invariant Inv.init Inv.step).tracks

/-- Only the last run takes a turn. -/
def OfLast (state : State) : Event → Prop
  | .run | .stop => True
  | .turn stream _ => stream + 1 = state.started

instance (state : State) (event : Event) : Decidable (OfLast state event) :=
  match event with
  | .run | .stop => .isTrue trivial
  | .turn stream _ => inferInstanceAs (Decidable (stream + 1 = state.started))

theorem undisturbed_of_last (hlast : OfLast state event) : Undisturbed parse state event := by
  cases event with
  | run => trivial
  | stop => trivial
  | turn stream step => exact .inl hlast

/-- An event of a log line. -/
def loggedEvent : Text := "\x7b\"type\":\"log\",\"message\":\"b\"\x7d".toList

def parseLogged (text : Text) : Option Parsed := if text = loggedEvent then some (.log ['b']) else none

/-- A load is stopped and has unwound when the next one is started, which shows its log. -/
theorem tracks_of_second_load : ∃ state, Tracks state ∧ state.logs = [⟨1, ['b']⟩] := by
  obtain ⟨state, hrun, hlogs⟩ : ∃ state, (machine parseLogged).runUnder OfLast
      (machine parseLogged).init
      [.run, .turn 0 .session, .stop, .turn 0 .abortSeen, .run, .turn 1 .session,
        .turn 1 (.answer .ok), .turn 1 .resume,
        .turn 1 (.chunk ("data: ".toList ++ loggedEvent ++ ['\n'])), .turn 1 .resume] =
        some state ∧ state.logs = [⟨1, ['b']⟩] := ⟨_, rfl, rfl⟩
  have hlast {state : State} {event : Event} :
      OfLast state event → Undisturbed parseLogged state event := undisturbed_of_last
  have hpath := (Machine.path_of_runUnder hrun).mono fun _ _ => hlast
  exact ⟨state, tracks_of_undisturbed hpath, hlogs⟩

/-- A step after which the panel tracks the current load disturbs nothing, so that the condition
is the exact one. -/
theorem undisturbed_of_tracks (hinv : Inv state)
    (hstep : step parse state event = some next) (htracks : Tracks next) :
    Undisturbed parse state event := by
  cases event with
  | run => trivial
  | stop => trivial
  | turn stream step =>
    obtain ⟨hstream, hmap⟩ := Option.ite_none_right_eq_some.mp hstep
    obtain ⟨taken, hturn, rfl⟩ := Option.map_eq_some_iff.mp hmap
    by_cases hlast : stream + 1 = state.started
    · exact .inl hlast
    · refine .inr fun other hother => ?_
      cases hturn.symm.trans hother
      obtain ⟨run, hrun⟩ := Nat.exists_eq_add_one_of_ne_zero (Nat.ne_zero_of_lt hstream)
      refine ⟨?_, fun hphase open' hopen => ?_⟩
      · by_contra hupdates
        have hkept := State.keptOf_take.mp
          (htracks.keptOf (State.started_take.trans hrun).symm)
        exact State.not_keptOf_setAll hupdates (by omega) hkept
      · have hne : open' ≠ stream := fun hsame =>
          hlast (hsame ▸ hinv.last_of_open hopen)
        have hstill := htracks.abortRef open' ((State.open_take_of_ne hne).mpr hopen)
        rw [State.take_finished hphase] at hstill
        cases hstill

/-- The panel tracks the current load in every state that a run comes to exactly when the run is
undisturbed. -/
theorem path_tracks_iff_undisturbed (parse : Text → Option Parsed) (events : List Event)
    (state : State) : (machine parse).Path ((machine parse).LeadsTo Tracks) events state ↔
      (machine parse).Path (Undisturbed parse) events state := by
  refine (Machine.path_congr Inv.init Inv.step ?_).symm
  intro source event target hinv hstep
  constructor
  · intro hundisturbed other hother
    exact (hinv.step hundisturbed hother).tracks
  · intro hleads
    exact undisturbed_of_tracks hinv hstep (hleads target hstep)

/-! ## A load started before the last one has unwound -/

/-- The first load unwinds after the second one was started: the second one goes on, and can not
be stopped. -/
theorem not_tracks_of_restart : ¬ ∀ parse events state,
    (machine parse).Path Machine.anyStep events state → Tracks state := by
  intro h
  obtain ⟨state, hrun, hstarted, hsecond, habort⟩ : ∃ state,
      (machine parseLogged).runFrom (machine parseLogged).init
        [.run, .stop, .run, .turn 0 .session, .turn 0 .abortSeen] = some state ∧
      state.started = 2 ∧ state.streams 1 = {} ∧ state.abortRef = none :=
    ⟨_, rfl, rfl, rfl, rfl⟩
  have htracks := h _ _ _ (Machine.path_of_runFrom hrun)
  have hopen : state.Open 1 := by
    rw [State.Open, hstarted, hsecond]
    exact ⟨Nat.lt_succ_self 1, rfl, nofun⟩
  cases habort.symm.trans (htracks.abortRef 1 hopen)

end Turns

end DbtCraft.Web.IngestStream

/-
# A job of a warm worker

`DbtWarmWorker.start` and `DbtWarmWorker.run` of `app/services/dbt_worker.py`: the lines of the
worker's output are read until one is the response to the request. What is no JSON, or the
response to something else, is output that leaked. Only an object has the `get` that a line
which is JSON is asked for.
-/

import DbtCraft.Python.JsonLine
import DbtCraft.Python.JsonValue
import DbtCraft.Python.Subprocess
import DbtCraft.Python.Unquote

namespace DbtCraft.Services.WarmWorker

open DbtCraft.Python DbtCraft.Python.JsonText
open DbtCraft.Python.Url (decodeReplacing)

/-! ## The output of the worker -/

/-- How the output ends. -/
inductive Ending
  | /-- Nothing more is written before the time is over. -/
    silent
  | /-- The output is closed, behind a last line without a line feed. -/
    closed (last : List UInt8)

/-- What is written to the output, its lines without their line feeds. -/
structure Output where
  lines : List (List UInt8)
  ending : Ending
  isLine : ∀ line ∈ lines, 10 ∉ line

/-- What one wait for a line comes to. -/
inductive Read
  | line (bytes : List UInt8)
  | overlong
  | closed
  | expired

/-- A line that `readline` returns with these bytes, the line feed not counted. -/
def readOf (limit : ℕ) (line feed : List UInt8) : Read :=
  match readline limit line.length with
  | .returns => .line (line ++ feed)
  | .valueError => .overlong

def Ending.reads (limit : ℕ) : Ending → List Read
  | .silent => [.expired]
  | .closed last => if last = [] then [.closed] else [readOf limit last [], .closed]

/-- What the waits for lines come to, with `limit` for the stream. -/
def Output.reads (limit : ℕ) (output : Output) : List Read :=
  output.lines.map (fun line => readOf limit line [10]) ++ output.ending.reads limit

/-! ## The job -/

/-- An exception, by whether the caller handles it. -/
inductive Failure
  | /-- `DbtWarmWorkerError`. -/
    worker (message : String)
  | /-- `asyncio.TimeoutError`. -/
    timeout
  | other (raised : Raised)

/-- What is returned of a response. -/
structure Response where
  returncode : ℤ
  stdout : Codes
  stderr : Codes

/-- Conversions of the language. -/
structure Builtins where
  /-- What `json.loads` raises on a text, if it is no `JSONDecodeError`. -/
  interrupts : List Char → Option Raised
  /-- `int(text)`. -/
  intOfText : Codes → Except Raised ℤ
  /-- `int(number)` of a float. -/
  truncate : Numeral → Except Raised ℤ
  /-- `str(value)` of what is no text. -/
  shown : JsonValue → Codes

/-- What else a job meets. -/
structure Surroundings where
  workerId : ℕ
  requestId : String
  /-- No process of the worker is alive. -/
  dead : Bool
  /-- What starting a process raises. -/
  spawn : Option Raised
  /-- The process exits before the request is written. -/
  exited : Bool
  /-- What writing the request raises. -/
  drain : Option Raised

variable (builtins : Builtins) (surroundings : Surroundings)

/-- `str(value)`. -/
def Builtins.str : JsonValue → Codes
  | .str codes => codes
  | value => builtins.shown value

/-- A number without a fraction and an exponent is an integer. -/
def Builtins.intOfNumeral (numeral : Numeral) : Except Raised ℤ :=
  let digits := numeral.text.dropWhile (· = '-')
  if digits.all Char.isDigit then
    let natural : ℤ := (Nat.ofDigitChars 10 digits 0 : ℕ)
    .ok (if numeral.text.head? = some '-' then -natural else natural)
  else builtins.truncate numeral

/-- `int(value)`. -/
def Builtins.int : JsonValue → Except Raised ℤ
  | .number numeral => builtins.intOfNumeral numeral
  | .str codes => builtins.intOfText codes
  | .word .true => .ok 1
  | .word .false => .ok 0
  | .word .notANumber => .error (.valueError "cannot convert float NaN to integer")
  | .word .infinity | .word .minusInfinity => .error .overflowError
  | .word .null | .list _ | .dict _ => .error .typeError

/-- A message of a `DbtWarmWorkerError`. -/
def Surroundings.message (what : String) : String :=
  "worker " ++ toString surroundings.workerId ++ " " ++ what

/-- `line.decode(errors="replace")`. -/
def textOf (bytes : List UInt8) : List Char := decodeReplacing bytes.length bytes

/-- The object is the response to the request. -/
def Surroundings.isOwn (members : List (Codes × JsonValue)) : Bool :=
  (member "id" members).any fun value => value.isText surroundings.requestId

/-- `int(response.get("returncode", 1))`. -/
def Builtins.returncodeOf (members : List (Codes × JsonValue)) : Except Raised ℤ :=
  ((member "returncode" members).map builtins.int).getD (.ok 1)

/-- `str(response.get(name, ""))`. -/
def Builtins.streamOf (name : String) (members : List (Codes × JsonValue)) : Codes :=
  ((member name members).map builtins.str).getD []

/-- What is returned of the response, behind what leaked before it. -/
def Builtins.respond (leaked : List (List Char)) (members : List (Codes × JsonValue)) :
    Except Failure Response :=
  match builtins.returncodeOf members with
  | .ok returncode => .ok
    { returncode
      stdout := codesOf leaked.flatten ++ builtins.streamOf "stdout" members
      stderr := builtins.streamOf "stderr" members }
  | .error raised => .error (.other raised)

/-- The loop of `run`, behind the lines that leaked so far. -/
def await (leaked : List (List Char)) : List Read → Except Failure Response
  | [] | .expired :: _ => .error .timeout
  | .overlong :: _ => .error (.worker (surroundings.message "response exceeded stream limit"))
  | .closed :: _ => .error (.worker (surroundings.message "closed stdout"))
  | .line bytes :: rest =>
    match builtins.interrupts (textOf bytes) with
    | some raised => .error (.other raised)
    | none =>
      match scan (textOf bytes) with
      | none => await (leaked ++ [textOf bytes]) rest
      | some (.dict members) =>
        if surroundings.isOwn members then builtins.respond leaked members
        else await (leaked ++ [textOf bytes]) rest
      | some _ => .error (.other .attributeError)

/-- `run`, once the worker is started. -/
def submit (reads : List Read) : Except Failure Response :=
  if surroundings.exited then .error (.worker (surroundings.message "exited"))
  else
    match surroundings.drain with
    | some raised => .error (.other raised)
    | none => await builtins surroundings [] reads

/-- What is read as the first line of a process: its members, if it is an object. -/
def readyOf (bytes : List UInt8) : Except Raised (List (Codes × JsonValue)) :=
  match String.fromUTF8? bytes.toByteArray with
  | none => .error (.valueError "'utf-8' codec can't decode")
  | some text =>
    match builtins.interrupts text.toList with
    | some raised => .error raised
    | none =>
      match scan text.toList with
      | none => .error (.valueError "JSONDecodeError")
      | some (.dict members) => .ok members
      | some _ => .error .attributeError

/-- The object says that the worker is ready. -/
def isReady (members : List (Codes × JsonValue)) : Bool :=
  (member "type" members).any fun value => value.isText "ready"

/-- `start` of a new process, and what is left to read behind it. -/
def start : List Read → Except Failure (List Read)
  | [] | .expired :: _ => .error .timeout
  | .overlong :: _ =>
    .error (.other (.valueError "Separator is found, but chunk is longer than limit"))
  | .closed :: _ => .error (.worker (surroundings.message "failed to start"))
  | .line bytes :: rest =>
    match readyOf builtins bytes with
    | .error raised => .error (.other raised)
    | .ok members =>
      if isReady members then .ok rest
      else .error (.worker (surroundings.message "invalid ready response"))

/-- `run` on what the waits for lines come to. -/
def run (reads : List Read) : Except Failure Response :=
  if surroundings.dead then
    match surroundings.spawn with
    | some raised => .error (.other raised)
    | none =>
      match start builtins surroundings reads with
      | .error failure => .error failure
      | .ok rest => submit builtins surroundings rest
  else submit builtins surroundings reads

/-! ## The property -/

/-- The line is a response to the request, with these members. -/
def Answers (bytes : List UInt8) (members : List (Codes × JsonValue)) : Prop :=
  scan (textOf bytes) = some (.dict members) ∧ surroundings.isOwn members = true

/-- What is returned is the first response to the request, with all that leaked before it; some
texts have leaked already. -/
def Returns (leaked : List (List Char)) (reads : List Read) (response : Response) : Prop :=
  ∃ (lines : List (List UInt8)) (bytes : List UInt8) (rest : List Read)
      (members : List (Codes × JsonValue)),
    reads = lines.map Read.line ++ Read.line bytes :: rest ∧
    (∀ line ∈ lines, ∀ others, ¬ Answers surroundings line others) ∧
    Answers surroundings bytes members ∧
    builtins.returncodeOf members = .ok response.returncode ∧
    response.stdout = codesOf (leaked ++ lines.map textOf).flatten ++
      builtins.streamOf "stdout" members ∧
    response.stderr = builtins.streamOf "stderr" members

/-- The lines behind the one that says that the worker is ready, if it is started first. -/
def Surroundings.behindReady (reads : List Read) : List Read :=
  if surroundings.dead then reads.tail else reads

/-- The job ends as its caller expects it. -/
def Survives (reads : List Read) : Prop :=
  match run builtins surroundings reads with
  | .ok response => Returns builtins surroundings [] (surroundings.behindReady reads) response
  | .error (.worker _) | .error .timeout => True
  | .error (.other _) => False

/-- The line can be read: `json.loads` raises nothing but a `JSONDecodeError`, what it returns
is an object, and the exit code of the response is a number. -/
def Harmless (bytes : List UInt8) : Prop :=
  builtins.interrupts (textOf bytes) = none ∧
    ∀ value, scan (textOf bytes) = some value → ∃ members, value = .dict members ∧
      (surroundings.isOwn members = true → ∃ returncode,
        builtins.returncodeOf members = .ok returncode)

/-- Every line that is come to before the response can be read. -/
def AllHarmless (reads : List Read) : Prop :=
  ∀ (before : List (List UInt8)) bytes rest, reads = before.map Read.line ++ Read.line bytes :: rest →
    (∀ line ∈ before, ∀ members, ¬ Answers surroundings line members) →
      Harmless builtins surroundings bytes

/-- The request can be written, and the lines behind it can be read. -/
def CanSubmit (reads : List Read) : Prop :=
  surroundings.exited = false → surroundings.drain = none ∧ AllHarmless builtins surroundings reads

/-- The process can be started, and its first line is an object; if that says that the worker is
ready, the request can be written. -/
def CanStart (reads : List Read) : Prop :=
  surroundings.spawn = none ∧ reads.head? ≠ some .overlong ∧
    ∀ bytes rest, reads = .line bytes :: rest → ∃ members, readyOf builtins bytes = .ok members ∧
      (isReady members = true → CanSubmit builtins surroundings rest)

/-- The worker is started if it must be, and the request is written. -/
def CanRun (reads : List Read) : Prop :=
  if surroundings.dead then CanStart builtins surroundings reads
  else CanSubmit builtins surroundings reads

/-! ## The loop -/

variable {builtins : Builtins} {surroundings : Surroundings} {reads rest : List Read}
  {bytes : List UInt8} {leaked : List (List Char)} {response : Response}
  {members : List (Codes × JsonValue)}

theorem allHarmless_of_not_line (hread : ∀ bytes, reads.head? ≠ some (.line bytes)) :
    AllHarmless builtins surroundings reads := by
  intro before bytes rest hreads hbefore
  cases before with
  | nil => exact absurd (congrArg List.head? hreads) (hread bytes)
  | cons line before => exact absurd (congrArg List.head? hreads) (hread line)

theorem allHarmless_cons : AllHarmless builtins surroundings (.line bytes :: rest) ↔
    Harmless builtins surroundings bytes ∧
      ((∀ members, ¬ Answers surroundings bytes members) →
        AllHarmless builtins surroundings rest) := by
  apply Iff.intro
  · intro hall
    refine ⟨hall [] bytes rest rfl fun line hline => absurd hline List.not_mem_nil, ?_⟩
    intro hother before later after hrest hbefore
    apply hall (bytes :: before) later after (congrArg (Read.line bytes :: ·) hrest)
    exact List.forall_mem_cons.mpr ⟨hother, hbefore⟩
  · intro hall before later after hreads hbefore
    cases before with
    | nil =>
      cases hreads
      exact hall.1
    | cons line before =>
      cases hreads
      obtain ⟨hline, hlater⟩ := List.forall_mem_cons.mp hbefore
      exact hall.2 hline before later after rfl hlater

/-- What a line that can be read does to the loop. -/
theorem await_line (hquiet : builtins.interrupts (textOf bytes) = none) :
    await builtins surroundings leaked (.line bytes :: rest) =
      match scan (textOf bytes) with
      | none => await builtins surroundings (leaked ++ [textOf bytes]) rest
      | some (.dict members) =>
        if surroundings.isOwn members then builtins.respond leaked members
        else await builtins surroundings (leaked ++ [textOf bytes]) rest
      | some _ => .error (.other .attributeError) := by
  rw [await, hquiet]

theorem not_answers_of_scan (hscan : scan (textOf bytes) = none) :
    ∀ members, ¬ Answers surroundings bytes members := by
  intro members hanswers
  cases hscan.symm.trans hanswers.1

theorem not_answers_of_isOwn (hscan : scan (textOf bytes) = some (.dict members))
    (hown : surroundings.isOwn members ≠ true) :
    ∀ members, ¬ Answers surroundings bytes members := by
  intro others hanswers
  cases hscan.symm.trans hanswers.1
  exact hown hanswers.2

theorem respond_eq_ok (hrespond : builtins.respond leaked members = .ok response) :
    builtins.returncodeOf members = .ok response.returncode ∧
    response.stdout = codesOf leaked.flatten ++ builtins.streamOf "stdout" members ∧
    response.stderr = builtins.streamOf "stderr" members := by
  unfold Builtins.respond at hrespond
  split at hrespond
  next hcode =>
    cases hrespond
    exact ⟨hcode, rfl, rfl⟩
  · cases hrespond

theorem Returns.cons (hother : ∀ others, ¬ Answers surroundings bytes others)
    (hreturns : Returns builtins surroundings (leaked ++ [textOf bytes]) rest response) :
    Returns builtins surroundings leaked (.line bytes :: rest) response := by
  obtain ⟨lines, answer, after, members, hreads, hlines, hanswers, hcode, hout, herr⟩ := hreturns
  refine ⟨bytes :: lines, answer, after, members, congrArg (Read.line bytes :: ·) hreads,
    List.forall_mem_cons.mpr ⟨hother, hlines⟩, hanswers, hcode, ?_, herr⟩
  rw [hout, List.append_assoc, List.singleton_append, List.map_cons]

/-- What the loop returns is the response, behind the lines that leaked. -/
theorem returns_of_await (hawait : await builtins surroundings leaked reads = .ok response) :
    Returns builtins surroundings leaked reads response := by
  induction reads generalizing leaked with
  | nil => cases hawait
  | cons read rest ih =>
    cases read with
    | overlong => cases hawait
    | closed => cases hawait
    | expired => cases hawait
    | line bytes =>
      cases hquiet : builtins.interrupts (textOf bytes) with
      | some raised =>
        rw [await, hquiet] at hawait
        cases hawait
      | none =>
        rw [await_line hquiet] at hawait
        split at hawait
        next hscan => exact .cons (not_answers_of_scan hscan) (ih hawait)
        next members hscan =>
          split at hawait
          next hown =>
            obtain ⟨hcode, hout, herr⟩ := respond_eq_ok hawait
            refine ⟨[], bytes, rest, members, rfl,
              fun line hline => absurd hline List.not_mem_nil, ⟨hscan, hown⟩, hcode, ?_,
              herr⟩
            rw [hout, List.map_nil, List.append_nil]
          next hown => exact .cons (not_answers_of_isOwn hscan hown) (ih hawait)
        · cases hawait

/-- A line of JSON can be read if it is an object, whose exit code is a number if it is the
response. -/
theorem harmless_iff (hquiet : builtins.interrupts (textOf bytes) = none) {value : JsonValue}
    (hscan : scan (textOf bytes) = some value) : Harmless builtins surroundings bytes ↔
    ∃ members, value = .dict members ∧ (surroundings.isOwn members = true → ∃ returncode,
      builtins.returncodeOf members = .ok returncode) := by
  rw [Harmless, hscan]
  exact ⟨fun hharmless => hharmless.2 value rfl, fun hmembers => ⟨hquiet, fun other hother =>
    Option.some.inj hother ▸ hmembers⟩⟩

theorem respond_ne_other_iff : (∀ raised, builtins.respond leaked members ≠
      .error (.other raised)) ↔ ∃ returncode, builtins.returncodeOf members = .ok returncode := by
  unfold Builtins.respond
  cases hcode : builtins.returncodeOf members with
  | ok returncode => exact iff_of_true (fun raised => nofun) ⟨returncode, rfl⟩
  | error raised => exact iff_of_false (fun hother => hother raised rfl) nofun

/-- The loop raises nothing else exactly when the lines it comes to can be read. -/
theorem await_iff : (∀ raised, await builtins surroundings leaked reads ≠ .error (.other raised)) ↔
    AllHarmless builtins surroundings reads := by
  induction reads generalizing leaked with
  | nil => exact iff_of_true (fun raised => nofun) (allHarmless_of_not_line fun bytes => nofun)
  | cons read rest ih =>
    cases read with
    | overlong =>
      exact iff_of_true (fun raised => nofun) (allHarmless_of_not_line fun bytes => nofun)
    | closed =>
      exact iff_of_true (fun raised => nofun) (allHarmless_of_not_line fun bytes => nofun)
    | expired =>
      exact iff_of_true (fun raised => nofun) (allHarmless_of_not_line fun bytes => nofun)
    | line bytes =>
      rw [allHarmless_cons]
      cases hquiet : builtins.interrupts (textOf bytes) with
      | some raised =>
        apply iff_of_false
        · intro hother
          apply hother raised
          rw [await, hquiet]
        · intro hharmless
          cases hquiet.symm.trans hharmless.1.1
      | none =>
        rw [await_line hquiet]
        cases hscan : scan (textOf bytes) with
        | none =>
          have hharmless : Harmless builtins surroundings bytes :=
            ⟨hquiet, fun value hvalue => nomatch hscan.symm.trans hvalue⟩
          simp only [ih, hharmless, true_and]
          exact ⟨fun hall _ => hall, fun hall => hall (not_answers_of_scan hscan)⟩
        | some value =>
          rw [harmless_iff hquiet hscan]
          cases value with
          | dict members =>
            by_cases hown : surroundings.isOwn members = true
            · simp only [hown, if_true, respond_ne_other_iff]
              apply Iff.intro
              · intro hcode
                exact ⟨⟨members, rfl, fun _ => hcode⟩,
                  fun hother => absurd ⟨hscan, hown⟩ (hother members)⟩
              · rintro ⟨⟨others, hsame, hcode⟩, -⟩
                cases hsame
                exact hcode hown
            · simp only [if_neg hown, ih]
              exact ⟨fun hall => ⟨⟨members, rfl, fun h => absurd h hown⟩, fun _ => hall⟩,
                fun hall => hall.2 (not_answers_of_isOwn hscan hown)⟩
          | _ =>
            apply iff_of_false
            · exact fun hother => hother .attributeError rfl
            · rintro ⟨⟨members, hsame, -⟩, -⟩
              cases hsame

/-! ## The whole job -/

theorem submit_iff : (∀ raised, submit builtins surroundings reads ≠ .error (.other raised)) ↔
    CanSubmit builtins surroundings reads := by
  unfold submit CanSubmit
  cases hexited : surroundings.exited with
  | true => exact iff_of_true (fun raised => nofun) nofun
  | false =>
    cases hdrain : surroundings.drain with
    | some raised =>
      exact iff_of_false (fun hother => hother raised rfl) fun hcan => nomatch (hcan rfl).1
    | none => exact await_iff.trans ⟨fun hall _ => ⟨rfl, hall⟩, fun hcan => (hcan rfl).2⟩

/-- What is left to read behind the first line. -/
theorem start_eq_ok (hstart : start builtins surroundings reads = .ok rest) :
    ∃ bytes, reads = .line bytes :: rest := by
  unfold start at hstart
  split at hstart
  · cases hstart
  · cases hstart
  · cases hstart
  · cases hstart
  next bytes behind =>
    split at hstart
    · cases hstart
    · split at hstart
      · cases hstart
        exact ⟨bytes, rfl⟩
      · cases hstart

theorem canStart_line : CanStart builtins surroundings (.line bytes :: rest) ↔
    surroundings.spawn = none ∧ ∃ members, readyOf builtins bytes = .ok members ∧
      (isReady members = true → CanSubmit builtins surroundings rest) := by
  apply Iff.intro
  · intro hcan
    exact ⟨hcan.1, hcan.2.2 bytes rest rfl⟩
  · intro hcan
    refine ⟨hcan.1, nofun, fun other behind hreads => ?_⟩
    cases hreads
    exact hcan.2

theorem canStart_of_not_line {read : Read} (hline : ∀ bytes, read ≠ .line bytes)
    (hshort : read ≠ .overlong) (hspawn : surroundings.spawn = none) :
    CanStart builtins surroundings (read :: rest) :=
  ⟨hspawn, fun hread => hshort (Option.some.inj hread),
    fun bytes _ hreads => absurd (List.cons.inj hreads).1 (hline bytes)⟩

/-- A job with a new process. -/
theorem run_dead (hdead : surroundings.dead = true) (hspawn : surroundings.spawn = none) :
    run builtins surroundings reads =
      match start builtins surroundings reads with
      | .error failure => .error failure
      | .ok rest => submit builtins surroundings rest := by
  rw [run, if_pos hdead, hspawn]

/-- The job raises nothing else exactly when it can be run. -/
theorem run_iff : (∀ raised, run builtins surroundings reads ≠ .error (.other raised)) ↔
    CanRun builtins surroundings reads := by
  unfold CanRun
  cases hdead : surroundings.dead with
  | false =>
    rw [run, hdead]
    exact submit_iff
  | true =>
    cases hspawn : surroundings.spawn with
    | some raised =>
      rw [run, hdead, hspawn]
      exact iff_of_false (fun hother => hother raised rfl)
        fun hcan => nomatch hspawn.symm.trans hcan.1
    | none =>
      rw [run_dead hdead hspawn, if_pos rfl]
      cases reads with
      | nil => exact iff_of_true (fun raised => nofun) ⟨hspawn, nofun, nofun⟩
      | cons read rest =>
        cases read with
        | overlong => exact iff_of_false (fun hother => hother _ rfl) fun hcan => hcan.2.1 rfl
        | closed =>
          exact iff_of_true (fun raised => nofun) (canStart_of_not_line nofun nofun hspawn)
        | expired =>
          exact iff_of_true (fun raised => nofun) (canStart_of_not_line nofun nofun hspawn)
        | line bytes =>
          rw [canStart_line, start]
          cases hready : readyOf builtins bytes with
          | error raised => exact iff_of_false (fun hother => hother raised rfl) nofun
          | ok members =>
            by_cases hreport : isReady members = true
            · simp only [hreport, if_true, submit_iff]
              exact ⟨fun hcan => ⟨hspawn, members, rfl, fun _ => hcan⟩,
                fun ⟨_, others, hsame, hcan⟩ => hcan (Except.ok.inj hsame ▸ hreport)⟩
            · simp only [if_neg hreport]
              exact iff_of_true (fun raised => nofun)
                ⟨hspawn, members, rfl, fun h => absurd h hreport⟩

/-- What is returned is the response. -/
theorem returns_of_run (hrun : run builtins surroundings reads = .ok response) :
    Returns builtins surroundings [] (surroundings.behindReady reads) response := by
  have hsubmit {reads : List Read} (hsubmit : submit builtins surroundings reads = .ok response) :
      Returns builtins surroundings [] reads response := by
    unfold submit at hsubmit
    split at hsubmit
    · cases hsubmit
    · split at hsubmit
      · cases hsubmit
      · exact returns_of_await hsubmit
  unfold run at hrun
  rw [Surroundings.behindReady]
  split at hrun
  next hdead =>
    rw [if_pos hdead]
    split at hrun
    · cases hrun
    · split at hrun
      · cases hrun
      next rest hstart =>
        obtain ⟨bytes, rfl⟩ := start_eq_ok hstart
        exact hsubmit hrun
  next hdead =>
    rw [if_neg hdead]
    exact hsubmit hrun

/-- **A job survives what leaks into the output** exactly when its worker can be started and
written to, and every line that is come to is no JSON, for which `json.loads` raises nothing but
a `JSONDecodeError`, or an object. -/
theorem survives_iff_canRun (builtins : Builtins) (surroundings : Surroundings) (limit : ℕ)
    (output : Output) : Survives builtins surroundings (output.reads limit) ↔
      CanRun builtins surroundings (output.reads limit) := by
  rw [← run_iff, Survives]
  split
  next hrun => exact iff_of_true (returns_of_run hrun) fun raised => by simp [hrun]
  next hrun => exact iff_of_true trivial fun raised => by simp [hrun]
  next hrun => exact iff_of_true trivial fun raised => by simp [hrun]
  next raised hrun => exact iff_of_false id fun hother => hother raised hrun

/-! ## A line that is a number -/

/-- The bytes of a text of ASCII. -/
def asciiOf (text : String) : List UInt8 := text.toList.map fun c => UInt8.ofNat c.toNat

/-- A number is printed before the response. -/
def printedNumber : Output where
  lines := [asciiOf "42", asciiOf "\x7b\"id\": \"a\", \"returncode\": 0\x7d"]
  ending := .silent
  isLine := by decide

/-- A running worker, and a request with a short id. -/
def running : Surroundings :=
  { workerId := 1, requestId := "a", dead := false, spawn := none, exited := false, drain := none }

/-- The line that is a number has no `get`. -/
theorem not_survives_number : ¬ ∀ builtins surroundings limit output,
    Survives builtins surroundings (Output.reads limit output) := by
  intro h
  have hnumber : scan (textOf (asciiOf "42" ++ [10])) = some (.number (numeralOf 42)) := rfl
  have hsurvives := h ⟨fun _ => none, fun _ => .ok 0, fun _ => .ok 0, fun _ => []⟩ running 65536
    printedNumber
  have hreads : printedNumber.reads 65536 = [.line (asciiOf "42" ++ [10]),
    .line (asciiOf "\x7b\"id\": \"a\", \"returncode\": 0\x7d" ++ [10]), .expired] := rfl
  rw [hreads, Survives, run, if_neg (by decide), submit, if_neg (by decide)] at hsurvives
  simp only [running, await, hnumber] at hsurvives

end DbtCraft.Services.WarmWorker

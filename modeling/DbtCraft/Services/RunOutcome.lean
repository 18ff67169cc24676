/-
# How a run's status is decided

A dbt command started by `DbtService.run_command` runs in a warm worker, with a
child process of `CommandService.run_cancellable` as fallback, and is tried up to
three times on a DuckDB lock conflict. One started over SSE runs once in a child
process of `_run_streaming_dbt_command`. Both encode the end of the command as a
return code, with `-1` for everything that is not an exit of the child, and each
decodes the code by its own rules into the status of the `dbt_runs` row.

The environment decides how a child or a worker job ends; the functions below
are what the code makes of it. The two paths agree, and are right, on less than
they should be: the theorem says exactly on which ends.
-/

import DbtCraft.Config
import DbtCraft.Python.Text

namespace DbtCraft.Services.RunOutcome

open DbtCraft.Python

/-- The statuses of a `dbt_runs` row. -/
inductive RunStatus
  | pending
  | running
  | success
  | error
  | cancelled
  deriving DecidableEq

structure Output where
  stdout : String
  stderr : String
  deriving DecidableEq

/-- How a child process ends. -/
inductive ChildEnd
  | /-- The child ended, and `marker` tells whether the cancel marker was set
    when the runner looked. -/
    exited (returncode : ℤ) (output : Output) (marker : Bool)
  | /-- The child is not done after `dbt_subprocess_timeout`, and left alone
    would end with this code. -/
    overran (returncode : ℤ) (output : Output)
  | /-- The task that awaits the child is cancelled. -/
    taskCancelled
  deriving DecidableEq

/-- How a job of the warm worker ends. A worker that fails or times out after a
cancel finds the cancellation epoch of its project moved. -/
inductive WorkerEnd
  | answered (returncode : ℤ) (output : Output)
  | failed (epochMoved : Bool)
  | timedOut (epochMoved : Bool)
  | taskCancelled
  deriving DecidableEq

/-! ## The background path -/

/-- `CommandService.run_cancellable`. -/
def runCancellable (settings : Settings) : ChildEnd → ℤ × Output
  | .exited returncode output marker =>
    if marker then (-1, ⟨"", "Command cancelled by user"⟩) else (returncode, output)
  | .overran _ output =>
    let timeout := settings.dbtSubprocessTimeout
    (-1, ⟨output.stdout,
      if output.stderr = "" then s!"Command timed out after {timeout} seconds"
      else output.stderr⟩)
  | .taskCancelled => (-1, ⟨"", "Command cancelled by user"⟩)

/-- One call of `_run_dbt_command`: how its worker job ends, and how the fallback
child would. -/
structure Attempt where
  worker : WorkerEnd
  child : ChildEnd
  deriving DecidableEq

/-- `DbtService._run_dbt_command` as `run_command` calls it; `none` is a
`CancelledError`. -/
def runDbtCommand (settings : Settings) (attempt : Attempt) : Option (ℤ × Output) :=
  match attempt.worker with
  | .answered returncode output => some (returncode, output)
  | .failed true | .timedOut true => some (-1, ⟨"", "Cancelled by user"⟩)
  | .failed false | .timedOut false => some (runCancellable settings attempt.child)
  | .taskCancelled => none

/-- The retry condition of `run_command`. -/
def conflicts (result : ℤ × Output) : Bool :=
  result.1 ≠ 0 && contains "Conflicting lock" (result.2.stderr ++ result.2.stdout)

/-- The retry loop of `run_command` with `retries` retries left. -/
def runAttempts (settings : Settings) (attempts : ℕ → Attempt) :
    (retries attempt : ℕ) → Option (ℤ × Output)
  | 0, attempt => runDbtCommand settings (attempts attempt)
  | retries + 1, attempt =>
    match runDbtCommand settings (attempts attempt) with
    | some result =>
      if conflicts result then runAttempts settings attempts retries (attempt + 1)
      else some result
    | none => none

/-- `max_retries - 1`. -/
def maxRetries : ℕ := 2

/-- The status `run_command` writes once its command has run. -/
def runCommandStatus (settings : Settings) (attempts : ℕ → Attempt) : RunStatus :=
  match runAttempts settings attempts maxRetries 0 with
  | none => .cancelled
  | some (returncode, _) => if returncode = 0 then .success else .error

/-! ## The SSE path -/

/-- `_run_streaming_dbt_command`, which has no time limit; `none` is a
`CancelledError`. -/
def runStreamingDbtCommand : ChildEnd → Option ℤ
  | .exited returncode _ marker => some (if marker then -1 else returncode)
  | .overran returncode _ => some returncode
  | .taskCancelled => none

/-- The status `stream_dbt` writes once its command has run. -/
def streamDbtStatus (child : ChildEnd) : RunStatus :=
  match runStreamingDbtCommand child with
  | none => .cancelled
  | some returncode =>
    if returncode = -1 then .cancelled
    else if returncode = 0 then .success else .error

/-! ## What the status should be -/

/-- The ends of a dbt command, whatever it ran in. -/
inductive Exit
  | ended (returncode : ℤ)
  | overran (returncode : ℤ)
  | cancelledByUser
  | taskCancelled
  deriving DecidableEq

def ChildEnd.exit : ChildEnd → Exit
  | .exited returncode _ marker => if marker then .cancelledByUser else .ended returncode
  | .overran returncode _ => .overran returncode
  | .taskCancelled => .taskCancelled

def Attempt.exit (attempt : Attempt) : Exit :=
  match attempt.worker with
  | .answered returncode _ => .ended returncode
  | .failed true | .timedOut true => .cancelledByUser
  | .failed false | .timedOut false => attempt.child.exit
  | .taskCancelled => .taskCancelled

/-- A cancelled command is `cancelled`, an exit with code 0 is a `success`, and
anything else is an `error`. -/
def Exit.status : Exit → RunStatus
  | .ended returncode => if returncode = 0 then .success else .error
  | .overran _ => .error
  | .cancelledByUser | .taskCancelled => .cancelled

/-- The attempt whose end the retry loop keeps. -/
def lastAttempt (settings : Settings) (attempts : ℕ → Attempt) :
    (retries attempt : ℕ) → Attempt
  | 0, attempt => attempts attempt
  | retries + 1, attempt =>
    match runDbtCommand settings (attempts attempt) with
    | some result =>
      if conflicts result then lastAttempt settings attempts retries (attempt + 1)
      else attempts attempt
    | none => attempts attempt

/-- The ends that both paths decode rightly: an exit with any code but `-1`, an
overrun that would have failed anyway, and a cancelled task, if the command ran
in the warm worker. -/
def Decodable (attempt : Attempt) : Prop :=
  match attempt.exit with
  | .ended returncode => returncode ≠ -1
  | .overran returncode => returncode ≠ 0 ∧ returncode ≠ -1
  | .cancelledByUser => False
  | .taskCancelled => attempt.worker = .taskCancelled

/-! ## Agreement -/

/-- The retry loop returns what its last attempt returned. -/
theorem runAttempts_eq_lastAttempt (settings : Settings) (attempts : ℕ → Attempt) :
    ∀ retries attempt, runAttempts settings attempts retries attempt =
      runDbtCommand settings (lastAttempt settings attempts retries attempt) := by
  intro retries
  induction retries with
  | zero => exact fun _ => rfl
  | succ retries ih =>
    intro attempt
    rw [runAttempts, lastAttempt]
    cases hresult : runDbtCommand settings (attempts attempt) with
    | none => exact hresult.symm
    | some result =>
      by_cases hconflict : conflicts result
      · simp only [hconflict, if_true]
        exact ih (attempt + 1)
      · simp only [hconflict, if_false, Bool.false_eq_true]
        exact hresult.symm

/-- What the background path makes of the end of its last attempt: every
encoding of a cancel or a timeout as `-1` becomes an error. -/
theorem runCommandStatus_eq (settings : Settings) (attempts : ℕ → Attempt) :
    runCommandStatus settings attempts =
      match (lastAttempt settings attempts maxRetries 0).exit with
      | .ended returncode => if returncode = 0 then .success else .error
      | .overran _ | .cancelledByUser => .error
      | .taskCancelled =>
        if (lastAttempt settings attempts maxRetries 0).worker = .taskCancelled then .cancelled
        else .error := by
  rw [runCommandStatus, runAttempts_eq_lastAttempt]
  obtain ⟨worker, child⟩ := lastAttempt settings attempts maxRetries 0
  have hchild : ∀ (epoch : WorkerEnd), epoch ≠ .taskCancelled →
      (if (runCancellable settings child).1 = 0 then RunStatus.success else .error) =
        match child.exit with
        | .ended returncode => if returncode = 0 then .success else .error
        | .overran _ | .cancelledByUser => .error
        | .taskCancelled => if epoch = .taskCancelled then .cancelled else .error := by
    intro epoch hepoch
    cases child with
    | exited returncode output marker => cases marker <;> simp [runCancellable, ChildEnd.exit]
    | overran returncode output => simp [runCancellable, ChildEnd.exit]
    | taskCancelled => simp [runCancellable, ChildEnd.exit, hepoch]
  cases worker with
  | answered returncode output => simp [runDbtCommand, Attempt.exit]
  | failed epochMoved =>
    cases epochMoved with
    | true => simp [runDbtCommand, Attempt.exit]
    | false => exact hchild (.failed false) (by simp)
  | timedOut epochMoved =>
    cases epochMoved with
    | true => simp [runDbtCommand, Attempt.exit]
    | false => exact hchild (.timedOut false) (by simp)
  | taskCancelled => simp [runDbtCommand, Attempt.exit]

/-- What the SSE path makes of the end of its child: the code `-1` of a child
reads as a cancel, and an overrun is not noticed. -/
theorem streamDbtStatus_eq (child : ChildEnd) :
    streamDbtStatus child =
      match child.exit with
      | .ended returncode | .overran returncode =>
        if returncode = -1 then .cancelled else if returncode = 0 then .success else .error
      | .cancelledByUser | .taskCancelled => .cancelled := by
  cases child with
  | exited returncode output marker =>
    cases marker <;> simp [streamDbtStatus, runStreamingDbtCommand, ChildEnd.exit]
  | overran returncode output => rfl
  | taskCancelled => rfl

/-- **Status agreement.** For a command that ends the same way on both paths,
both record the status it should have exactly when the end is decodable. -/
theorem statuses_agree_iff_decodable {settings : Settings} {attempts : ℕ → Attempt}
    {child : ChildEnd}
    (hsame : (lastAttempt settings attempts maxRetries 0).exit = child.exit) :
    (runCommandStatus settings attempts = streamDbtStatus child ∧
        streamDbtStatus child = child.exit.status) ↔
      Decodable (lastAttempt settings attempts maxRetries 0) := by
  rw [runCommandStatus_eq, streamDbtStatus_eq, Decodable, hsame]
  cases child.exit with
  | ended returncode =>
    by_cases hcancel : returncode = -1
    · simp [hcancel]
    · simp [hcancel, Exit.status]
  | overran returncode =>
    by_cases hcancel : returncode = -1
    · simp [hcancel]
    · by_cases hsuccess : returncode = 0
      · simp [hsuccess]
      · simp [hcancel, hsuccess, Exit.status]
  | cancelledByUser => simp
  | taskCancelled =>
    by_cases hworker : (lastAttempt settings attempts maxRetries 0).worker = .taskCancelled
    · simp [hworker, Exit.status]
    · simp [hworker]

/-- A model that fails after one lock conflict: an error on both paths. -/
theorem statuses_agree_of_failure :
    ∃ (attempts : ℕ → Attempt) (child : ChildEnd),
      runCommandStatus {} attempts = streamDbtStatus child ∧
        streamDbtStatus child = child.exit.status ∧ streamDbtStatus child = .error := by
  let failure : ChildEnd := .exited 1 ⟨"", "Database Error"⟩ false
  let attempts : ℕ → Attempt := fun attempt =>
    if attempt = 0 then ⟨.answered 1 ⟨"Conflicting lock", ""⟩, failure⟩
    else ⟨.failed false, failure⟩
  have hlast : lastAttempt {} attempts maxRetries 0 = ⟨.failed false, failure⟩ := by decide
  have hsame : (lastAttempt {} attempts maxRetries 0).exit = failure.exit := by
    rw [hlast]
    rfl
  have hdecodable : Decodable (lastAttempt {} attempts maxRetries 0) := by
    rw [hlast]
    show (1 : ℤ) ≠ -1
    decide
  obtain ⟨hagree, hright⟩ := (statuses_agree_iff_decodable hsame).mpr hdecodable
  exact ⟨attempts, failure, hagree, hright, rfl⟩

/-- The user cancels a run: the child exits on SIGTERM and both runners see the
marker. The SSE path records a cancel and the background path an error. -/
theorem not_statuses_agree_of_cancel :
    ¬ ∀ (settings : Settings) (attempts : ℕ → Attempt) (child : ChildEnd),
      (lastAttempt settings attempts maxRetries 0).exit = child.exit →
        runCommandStatus settings attempts = streamDbtStatus child ∧
          streamDbtStatus child = child.exit.status := by
  intro hclaim
  let cancelled : ChildEnd := .exited (-15) ⟨"", ""⟩ true
  let attempts : ℕ → Attempt := fun _ => ⟨.failed false, cancelled⟩
  have hlast : lastAttempt {} attempts maxRetries 0 = ⟨.failed false, cancelled⟩ := by decide
  have hbackground : runCommandStatus {} attempts = .error := by decide
  have hsse : streamDbtStatus cancelled = .cancelled := by decide
  obtain ⟨hagree, -⟩ := hclaim {} attempts cancelled (by rw [hlast]; rfl)
  rw [hbackground, hsse] at hagree
  cases hagree

end DbtCraft.Services.RunOutcome

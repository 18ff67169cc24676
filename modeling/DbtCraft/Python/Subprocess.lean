/-
# Child processes of asyncio

What a coroutine sees of a child process it started: whether it has been reaped,
and the lines of its output through a `StreamReader` with a limit.
-/

import Mathlib.Data.Int.Notation
import Mathlib.Data.Nat.Notation

namespace DbtCraft.Python

/-- A child process; `process.returncode` is `None` while it runs. -/
inductive Child
  | absent
  | running
  | exited (returncode : ℤ)
  deriving DecidableEq

/-- `process.returncode or 0`. -/
def Child.returncode : Child → ℤ
  | .exited returncode => returncode
  | .absent | .running => 0

/-- What `StreamReader.readline` does with the next line. -/
inductive ReadLine
  | returns
  | /-- The line is longer than the limit. -/
    valueError
  deriving DecidableEq

/-- `StreamReader.readline` on a line of `bytes` bytes before its newline: the
limit is compared with the part of the line without the newline. -/
def readline (limit bytes : ℕ) : ReadLine :=
  if bytes ≤ limit then .returns else .valueError

theorem readline_eq_returns {limit bytes : ℕ} :
    readline limit bytes = .returns ↔ bytes ≤ limit := by
  unfold readline
  split <;> simp [*]

end DbtCraft.Python

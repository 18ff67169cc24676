/-
# `datetime.datetime`

A datetime as its wall clock, in microseconds since the first of January of the year
1, and its UTC offset if it has one.
-/

import DbtCraft.Exceptions
import Mathlib.Data.Int.Notation
import Mathlib.Data.Nat.Notation

namespace DbtCraft.Python

structure Datetime where
  wall : ℤ
  utcOffset : Option ℤ := none
  deriving DecidableEq

namespace Datetime

/-- The microseconds from the first day to the end of the year 9999. -/
def limit : ℤ := 3652059 * 86400000000

/-- `value.astimezone(timezone.utc).replace(tzinfo=None)` for an aware datetime, which
may leave the years that a datetime has. -/
def toNaiveUtc (value : Datetime) : Except Raised ℤ :=
  match value.utcOffset with
  | none => .ok value.wall
  | some offset =>
    if 0 ≤ value.wall - offset ∧ value.wall - offset < limit then .ok (value.wall - offset)
    else .error .overflowError

/-- A day counted from the first of January of the year 1, as year, month and day. -/
def civil (ordinal : ℕ) : ℕ × ℕ × ℕ :=
  -- The era of 400 years begins on the first of March, so a leap day ends its year.
  let days := ordinal + 306
  let era := days / 146097
  let inEra := days % 146097
  let year := (inEra - inEra / 1460 + inEra / 36524 - inEra / 146096) / 365
  let inYear := inEra - (365 * year + year / 4 - year / 100)
  let month := (5 * inYear + 2) / 153
  let day := inYear - (153 * month + 2) / 5 + 1
  if month < 10 then (year + era * 400, month + 3, day)
  else (year + era * 400 + 1, month - 9, day)

/-- Two digits. -/
def twoDigits (n : ℕ) : String := if n < 10 then "0" ++ toString n else toString n

/-- `strftime("%Y-%m-%dT%H:%M:%S")`; the C library does not pad the year. -/
def strftime (wall : ℕ) : String :=
  let seconds := wall / 1000000
  let (year, month, day) := civil (seconds / 86400)
  let inDay := seconds % 86400
  toString year ++ "-" ++ twoDigits month ++ "-" ++ twoDigits day ++ "T" ++
    twoDigits (inDay / 3600) ++ ":" ++ twoDigits (inDay / 60 % 60) ++ ":" ++
      twoDigits (inDay % 60)

end Datetime

end DbtCraft.Python

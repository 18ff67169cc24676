/-
# The log of a streamed run

`stream_dbt` of `app/routers/sse.py` keeps the lines that it streams, until their
characters reach a bound, and stores them joined by line feeds. The line feeds are not
counted: only a line that is not empty brings the bound nearer.
-/

import DbtCraft.Python.Lines
import Mathlib.Data.Set.Defs

namespace DbtCraft.Routers.RunLog

open DbtCraft.Python

/-- `MAX_LINE_BYTES`. -/
def maxLineBytes : ℕ := 64 * 1024

/-- `MAX_LOG_CHARS`. -/
def maxLogChars : ℕ := 1024 * 1024

/-- `output_lines` and `log_chars`. -/
structure Log where
  outputLines : List (List Char) := []
  logChars : ℕ := 0

/-- `len(line.encode())`. -/
def encodedLength (line : List Char) : ℕ := (line.map Char.utf8Size).sum

/-- A line as it is streamed. -/
def truncate (line : List Char) : List Char :=
  if maxLineBytes < encodedLength line then
    line.take maxLineBytes ++ "...[truncated]".toList
  else line

/-- What the loop keeps of a streamed line. -/
def Log.append (cap : ℕ) (log : Log) (line : List Char) : Log :=
  if log.logChars < cap then
    ⟨log.outputLines ++ [line.take (cap - log.logChars)], log.logChars + line.length⟩
  else log

/-- The log after the lines of a run. -/
def collect (lines : List (List Char)) : Log :=
  (lines.map truncate).foldl (Log.append maxLogChars) {}

/-- The text that `persist_complete` stores. -/
def storedLog (lines : List (List Char)) : List Char := joinLines (collect lines).outputLines

/-! ## What is kept -/

/-- The lines that begin before so many characters are reached. -/
def early : ℕ → List (List Char) → List (List Char)
  | _, [] => []
  | room, line :: rest => if room = 0 then [] else line :: early (room - line.length) rest

/-- The same lines, the last of them cut. -/
def kept : ℕ → List (List Char) → List (List Char)
  | _, [] => []
  | room, line :: rest =>
    if room = 0 then [] else line.take room :: kept (room - line.length) rest

variable {cap room : ℕ} {log : Log} {line : List Char} {lines rest : List (List Char)}

@[simp] theorem kept_zero : kept 0 lines = [] := by cases lines <;> rfl

theorem outputLines_foldl :
    (lines.foldl (Log.append cap) log).outputLines =
      log.outputLines ++ kept (cap - log.logChars) lines := by
  induction lines generalizing log with
  | nil => simp [kept]
  | cons line rest ih =>
    rw [List.foldl_cons, ih, Log.append, kept]
    by_cases hroom : log.logChars < cap
    · have hpos : cap - log.logChars ≠ 0 := by omega
      rw [if_pos hroom, if_neg hpos, Nat.sub_add_eq, List.append_assoc, List.singleton_append]
    · have hfull : cap - log.logChars = 0 := by omega
      rw [if_neg hroom, if_pos hfull, hfull, kept_zero]

/-- The stored lines are those that begin early enough. -/
theorem storedLog_eq : storedLog lines = joinLines (kept maxLogChars (lines.map truncate)) := by
  rw [storedLog, collect, outputLines_foldl]
  rfl

theorem length_kept : (kept room lines).length = (early room lines).length := by
  induction lines generalizing room with
  | nil => rfl
  | cons line rest ih =>
    rw [kept, early]
    split
    · rfl
    · rw [List.length_cons, List.length_cons, ih]

/-- The kept characters stay within the bound. -/
theorem lineChars_kept_le (room : ℕ) (lines : List (List Char)) :
    lineChars (kept room lines) ≤ room + (kept room lines).length := by
  induction lines generalizing room with
  | nil => simp [kept]
  | cons line rest ih =>
    rw [kept]
    split
    · simp
    · have hrest := ih (room - line.length)
      have htake : (line.take room).length = min room line.length := List.length_take
      rw [lineChars_cons, List.length_cons, htake]
      omega

/-- Every line that is not empty takes room. -/
theorem length_early_le (room : ℕ) (lines : List (List Char)) :
    (early room lines).length ≤ room + (early room lines).count [] := by
  induction lines generalizing room with
  | nil => simp [early]
  | cons line rest ih =>
    rw [early]
    split
    · simp
    · have hrest := ih (room - line.length)
      cases line with
      | nil =>
        rw [List.count_cons_self, List.length_cons]
        simp only [List.length_nil, Nat.sub_zero] at hrest ⊢
        omega
      | cons first others =>
        rw [List.count_cons_of_ne (List.cons_ne_nil _ _), List.length_cons]
        simp only [List.length_cons] at hrest ⊢
        omega

/-- The beginning of the whole output is kept. -/
theorem joinLines_kept_prefix : joinLines (kept room lines) <+: joinLines lines := by
  induction lines generalizing room with
  | nil => exact List.nil_prefix
  | cons line rest ih =>
    rw [kept]
    split
    · exact List.nil_prefix
    · by_cases hcut : room ≤ line.length
      · -- The line that reaches the bound is the last one kept.
        rw [Nat.sub_eq_zero_of_le hcut, kept_zero, joinLines_singleton]
        have hline : line <+: joinLines (line :: rest) := by
          simpa using joinLines_prefix (List.prefix_append [line] rest)
        exact (List.take_prefix room line).trans hline
      · rw [List.take_of_length_le (by omega)]
        cases hkept : kept (room - line.length) rest with
        | nil => simpa using joinLines_prefix (List.prefix_append [line] rest)
        | cons next others =>
          have hrest : rest ≠ [] := by
            rintro rfl
            cases hkept
          rw [joinLines_cons (List.cons_ne_nil _ _), joinLines_cons hrest, ← hkept]
          exact (List.prefix_append_right_inj _).mpr
            ((List.prefix_cons_inj _).mpr ih)

/-! ## The bound -/

/-- The empty lines of a run that begin before the bound is reached. -/
def emptyLines (lines : List (List Char)) : ℕ :=
  (early maxLogChars (lines.map truncate)).count []

theorem length_storedLog_le (lines : List (List Char)) :
    (storedLog lines).length ≤ maxLogChars + (maxLogChars + emptyLines lines) := by
  have hchars := lineChars_kept_le maxLogChars (lines.map truncate)
  have hcount := length_early_le maxLogChars (lines.map truncate)
  have hjoin := length_joinLines_le (kept maxLogChars (lines.map truncate))
  rw [storedLog_eq, emptyLines]
  rw [length_kept] at hchars
  omega

theorem emptyLines_le (lines : List (List Char)) :
    emptyLines lines ≤ (storedLog lines).length + 1 := by
  have hcount : emptyLines lines ≤ (kept maxLogChars (lines.map truncate)).length := by
    rw [emptyLines, length_kept]
    exact List.count_le_length
  have hlength : ∀ found : List (List Char), found.length ≤ lineChars found := by
    intro found
    induction found with
    | nil => simp
    | cons line rest ih =>
      rw [lineChars_cons, List.length_cons]
      omega
  rw [storedLog_eq]
  cases hkept : kept maxLogChars (lines.map truncate) with
  | nil =>
    rw [hkept] at hcount
    exact Nat.le_succ_of_le (Nat.le_trans hcount (Nat.zero_le _))
  | cons line rest =>
    rw [length_joinLines (List.cons_ne_nil _ _), ← hkept]
    exact Nat.le_trans hcount (hlength _)

/-- Over the runs with these lines, the stored log exceeds the bound by a constant at most,
and it is a beginning of the output. -/
structure Bounded (runs : Set (List (List Char))) : Prop where
  length : ∃ excess, ∀ lines ∈ runs, (storedLog lines).length ≤ maxLogChars + excess
  beginning : ∀ lines ∈ runs, storedLog lines <+: joinLines (lines.map truncate)

/-- **The log is bounded as long as its empty lines are.** -/
theorem bounded_iff (runs : Set (List (List Char))) :
    Bounded runs ↔ ∃ most, ∀ lines ∈ runs, emptyLines lines ≤ most := by
  apply Iff.intro
  · intro ⟨⟨excess, hlength⟩, _⟩
    refine ⟨maxLogChars + excess + 1, fun lines hlines => ?_⟩
    exact (emptyLines_le lines).trans (Nat.succ_le_succ (hlength lines hlines))
  · intro ⟨most, hmost⟩
    apply Bounded.mk
    · refine ⟨maxLogChars + most, fun lines hlines => ?_⟩
      have hbound := length_storedLog_le lines
      have hempty := hmost lines hlines
      omega
    · intro lines _
      rw [storedLog_eq]
      exact joinLines_kept_prefix

theorem early_replicate_nil {count : ℕ} (hroom : room ≠ 0) :
    early room (List.replicate count []) = List.replicate count [] := by
  induction count with
  | zero => rfl
  | succ count ih => rw [List.replicate_succ, early, if_neg hroom, List.length_nil, Nat.sub_zero, ih]

/-- A run may print as many empty lines as it likes. -/
theorem not_bounded_univ : ¬ Bounded Set.univ := by
  intro ⟨⟨excess, hlength⟩, _⟩
  have hlines := hlength (List.replicate (maxLogChars + excess + 2) []) trivial
  have hempty : emptyLines (List.replicate (maxLogChars + excess + 2) []) =
      maxLogChars + excess + 2 := by
    have htruncate : truncate [] = [] := rfl
    rw [emptyLines, List.map_replicate, htruncate, early_replicate_nil (by decide),
      List.count_replicate_self]
  have hcount := emptyLines_le (List.replicate (maxLogChars + excess + 2) [])
  omega

end DbtCraft.Routers.RunLog

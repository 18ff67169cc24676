/-
# The log of an ingest run

`_RunRecorder` of `app/routers/ingest.py` is to store the tail of a log. `observe` drops
every line after the cap is reached, so that `finish` stores the head: the tail only where
all lines fit, or where the log begins with the text in which it ends.
-/

import DbtCraft.Python.Lines
import Mathlib.Data.Int.Notation

namespace DbtCraft.Routers.IngestLog

open DbtCraft.Python

/-- An event of `_stream_process`, with `str(event.get("message") or "")`. -/
structure Event where
  type : String
  message : List Char

/-- `_log` and `_log_chars`. -/
structure Recorder where
  log : List (List Char) := []
  logChars : ℕ := 0

/-- `observe`; `limit` is `ingest_run_log_max_chars`. -/
def Recorder.observe (limit : ℤ) (recorder : Recorder) (event : Event) : Recorder :=
  if event.type ≠ "log" then recorder
  else if limit ≤ recorder.logChars then recorder
  else ⟨recorder.log ++ [event.message], recorder.logChars + event.message.length + 1⟩

/-- `text[:limit]`. -/
def sliceTo (limit : ℤ) (text : List Char) : List Char :=
  if 0 ≤ limit then text.take limit.toNat else text.take (text.length - limit.natAbs)

/-- `logs` of `finish`. -/
def Recorder.logs (limit : ℤ) (recorder : Recorder) : List Char :=
  sliceTo limit (joinLines recorder.log)

/-- The log stored after the events of a run. -/
def storedLogs (limit : ℤ) (events : List Event) : List Char :=
  (events.foldl (Recorder.observe limit) {}).logs limit

/-! ## What is meant -/

/-- The lines of a run. -/
def observedLines (events : List Event) : List (List Char) :=
  (events.filter fun event => event.type = "log").map Event.message

/-- Whole lines that fit the cap. -/
def Fits (limit : ℤ) (lines : List (List Char)) : Prop := ((joinLines lines).length : ℤ) ≤ limit

instance (limit : ℤ) (lines : List (List Char)) : Decidable (Fits limit lines) := by
  unfold Fits
  infer_instance

/-- The longest suffix of whole lines that fits the cap. -/
structure IsTail (limit : ℤ) (lines tail : List (List Char)) : Prop where
  suffix : tail <:+ lines
  fits : Fits limit tail
  longest : ∀ other, other <:+ lines → Fits limit other → other.length ≤ tail.length

/-- What is stored is the tail of the log. -/
def KeepsTail (limit : ℤ) (events : List Event) : Prop :=
  ∃ tail, IsTail limit (observedLines events) tail ∧ storedLogs limit events = joinLines tail

/-- The last lines, as many as fit. -/
def tailOf (limit : ℤ) : List (List Char) → List (List Char)
  | [] => []
  | line :: rest => if Fits limit (line :: rest) then line :: rest else tailOf limit rest

/-- A line ends where the cap is reached, and more lines follow. -/
def endsAtCap (limit : ℕ) : List (List Char) → Bool
  | [] => false
  | line :: rest =>
    limit = 0 || (decide (line.length + 1 ≤ limit) && endsAtCap (limit - (line.length + 1)) rest)

/-- All lines fit, and the last one is not an empty line for which no room was left. -/
def AllKept (limit : ℕ) (lines : List (List Char)) : Prop :=
  Fits limit lines ∧ (endsAtCap limit lines = true → limit = 0)

/-- The log is too long, but it begins with the text in which it ends. -/
def Repeats (limit : ℕ) (lines : List (List Char)) : Prop :=
  ¬ Fits limit lines ∧ joinLines (tailOf limit lines) <+: joinLines lines ∧
    (joinLines (tailOf limit lines)).length = if endsAtCap limit lines then limit - 1 else limit

/-- The lines that `observe` keeps while there is room. -/
def kept : ℕ → List (List Char) → List (List Char)
  | _, [] => []
  | room, line :: rest => if room = 0 then [] else line :: kept (room - (line.length + 1)) rest

/-! ## The head of a log -/

variable {limit : ℤ} {room : ℕ} {recorder : Recorder} {event : Event} {events : List Event}
  {line : List Char} {lines rest tail other : List (List Char)}

@[simp] theorem kept_zero : kept 0 lines = [] := by cases lines <;> rfl

theorem kept_ne_nil (hroom : room ≠ 0) (hlines : lines ≠ []) : kept room lines ≠ [] := by
  cases lines with
  | nil => exact absurd rfl hlines
  | cons line rest =>
    rw [kept, if_neg hroom]
    exact List.cons_ne_nil _ _

theorem observedLines_cons : observedLines (event :: events) =
    if event.type = "log" then event.message :: observedLines events else observedLines events := by
  by_cases hlog : event.type = "log" <;> simp [observedLines, hlog]

theorem log_foldl :
    (events.foldl (Recorder.observe limit) recorder).log =
      recorder.log ++ kept (limit - recorder.logChars).toNat (observedLines events) := by
  induction events generalizing recorder with
  | nil => simp [observedLines, kept]
  | cons event rest ih =>
    rw [List.foldl_cons, ih, Recorder.observe, observedLines_cons]
    by_cases hlog : event.type = "log"
    · rw [if_neg (not_not.mpr hlog), if_pos hlog, kept]
      by_cases hfull : limit ≤ recorder.logChars
      · have hroom : (limit - recorder.logChars).toNat = 0 := by omega
        rw [if_pos hfull, if_pos hroom, hroom, kept_zero]
      · have hroom : (limit - recorder.logChars).toNat ≠ 0 := by omega
        have hnext : (limit - ((recorder.logChars + event.message.length + 1 : ℕ) : ℤ)).toNat =
            (limit - recorder.logChars).toNat - (event.message.length + 1) := by omega
        rw [if_neg hfull, if_neg hroom, hnext, List.append_assoc, List.singleton_append]
    · rw [if_pos hlog, if_neg hlog]

/-- The kept lines are the beginning of the log; one character less of it, when a line ends
where the cap is reached. -/
theorem take_joinLines_kept :
    (joinLines (kept room lines)).take room =
      (joinLines lines).take (if endsAtCap room lines then room - 1 else room) := by
  induction lines generalizing room with
  | nil => simp [kept]
  | cons line rest ih =>
    rw [kept, endsAtCap]
    by_cases hroom : room = 0
    · simp [hroom]
    · rw [if_neg hroom]
      by_cases hline : line.length + 1 ≤ room
      · cases hrest : rest with
        | nil => simp [kept, endsAtCap, hroom]
        | cons next others =>
          rw [← hrest]
          have hne : rest ≠ [] := hrest ▸ List.cons_ne_nil _ _
          rw [joinLines_cons hne]
          by_cases hfull : room - (line.length + 1) = 0
          · have hlength : room - 1 = line.length := by omega
            rw [hfull, kept_zero, joinLines_singleton, List.take_of_length_le (by omega), hrest]
            simp [endsAtCap, hline, hlength]
          · obtain ⟨left, hleft⟩ : ∃ left, room = line.length + 1 + left :=
              ⟨room - (line.length + 1), by omega⟩
            have hsub : line.length + 1 + left - (line.length + 1) = left := by omega
            have htake : ∀ text : List Char, ∀ count,
                (line ++ '\n' :: text).take (line.length + 1 + count) =
                  line ++ '\n' :: text.take count := by
              intro text count
              rw [Nat.add_assoc, List.take_length_add_append, Nat.add_comm 1, List.take_succ_cons]
            rw [hleft, hsub] at hfull ⊢
            rw [joinLines_cons (kept_ne_nil hfull hne), htake, ih]
            have hdecide : decide (line.length + 1 ≤ line.length + 1 + left) = true := by
              simp
            rw [hdecide, Bool.true_and, decide_eq_false (by omega), Bool.false_or]
            split
            · have hone : line.length + 1 + left - 1 = line.length + 1 + (left - 1) := by omega
              rw [hone, htake]
            · rw [htake]
      · have hnone : room - (line.length + 1) = 0 := by omega
        have hbefore : line <+: joinLines (line :: rest) := by
          simpa using joinLines_prefix (List.prefix_append [line] rest)
        obtain ⟨after, hafter⟩ := hbefore
        rw [hnone, kept_zero, joinLines_singleton, ← hafter]
        simp only [hroom, hline, decide_false, Bool.false_and, Bool.or_false, Bool.false_eq_true,
          if_false]
        rw [List.take_append_of_le_length (by omega)]

theorem storedLogs_eq (hlimit : 0 ≤ limit) :
    storedLogs limit events = (joinLines (observedLines events)).take
      (if endsAtCap limit.toNat (observedLines events) then limit.toNat - 1 else limit.toNat) := by
  rw [storedLogs, Recorder.logs, sliceTo, if_pos hlimit, log_foldl, ← take_joinLines_kept]
  simp

/-! ## The tail of a log -/

theorem tailOf_suffix : tailOf limit lines <:+ lines := by
  induction lines with
  | nil => exact List.suffix_rfl
  | cons line rest ih =>
    rw [tailOf]
    split
    · exact List.suffix_rfl
    · exact ih.trans (List.suffix_cons line rest)

theorem fits_tailOf (hlimit : 0 ≤ limit) : Fits limit (tailOf limit lines) := by
  induction lines with
  | nil => simpa [tailOf, Fits] using hlimit
  | cons line rest ih =>
    rw [tailOf]
    split
    next hfits => exact hfits
    · exact ih

theorem length_le_tailOf (hsuffix : other <:+ lines) (hfits : Fits limit other) :
    other.length ≤ (tailOf limit lines).length := by
  induction lines with
  | nil => rw [List.suffix_nil.mp hsuffix, tailOf]
  | cons line rest ih =>
    rw [tailOf]
    split
    · exact hsuffix.length_le
    next hlong =>
      rcases List.suffix_cons_iff.mp hsuffix with hall | hsuffix
      · exact absurd (hall ▸ hfits) hlong
      · exact ih hsuffix

theorem isTail_iff (hlimit : 0 ≤ limit) : IsTail limit lines tail ↔ tail = tailOf limit lines := by
  apply Iff.intro
  · intro htail
    have hlength : tail.length = (tailOf limit lines).length :=
      Nat.le_antisymm (length_le_tailOf htail.suffix htail.fits)
        (htail.longest _ tailOf_suffix (fits_tailOf hlimit))
    exact (List.suffix_of_suffix_length_le htail.suffix tailOf_suffix hlength.le).eq_of_length
      hlength
  · rintro rfl
    exact ⟨tailOf_suffix, fits_tailOf hlimit, fun _ hsuffix hfits => length_le_tailOf hsuffix hfits⟩

/-! ## Where the head is the tail -/

theorem limit_le_of_endsAtCap (hends : endsAtCap room lines = true) :
    room ≤ (joinLines lines).length := by
  have hchars : ∀ {room : ℕ} {lines : List (List Char)}, endsAtCap room lines = true →
      lines ≠ [] ∧ room + 1 ≤ lineChars lines := by
    intro room lines hends
    induction lines generalizing room with
    | nil => cases hends
    | cons line rest ih =>
      refine ⟨List.cons_ne_nil _ _, ?_⟩
      rw [lineChars_cons]
      simp only [endsAtCap, Bool.or_eq_true, Bool.and_eq_true, decide_eq_true_eq] at hends
      rcases hends with hzero | ⟨hline, hrest⟩
      · omega
      · have hcount := (ih hrest).2
        omega
  obtain ⟨hne, hcount⟩ := hchars hends
  have hlength := length_joinLines hne
  omega

theorem keepsTail_iff_tailOf (hlimit : 0 ≤ limit) : KeepsTail limit events ↔
    storedLogs limit events = joinLines (tailOf limit (observedLines events)) := by
  simp only [KeepsTail, isTail_iff hlimit, exists_eq_left]

/-- **The stored log is the tail of the log when all lines are kept, or the log repeats
itself.** -/
theorem keepsTail_iff (limit : ℤ) (events : List Event) :
    KeepsTail limit events ↔ 0 ≤ limit ∧ (AllKept limit.toNat (observedLines events) ∨
      Repeats limit.toNat (observedLines events)) := by
  by_cases hlimit : 0 ≤ limit
  · have hcast : (limit.toNat : ℤ) = limit := Int.toNat_of_nonneg hlimit
    rw [keepsTail_iff_tailOf hlimit, storedLogs_eq hlimit, AllKept, Repeats, hcast]
    simp only [hlimit, true_and]
    generalize observedLines events = lines
    by_cases hfits : Fits limit lines
    · have hall : tailOf limit lines = lines := by
        cases lines with
        | nil => rfl
        | cons line rest => rw [tailOf, if_pos hfits]
      have hlength : (joinLines lines).length ≤ limit.toNat := by
        unfold Fits at hfits
        omega
      simp only [hall, hfits, not_true, false_and, or_false, true_and]
      cases hends : endsAtCap limit.toNat lines with
      | false => simpa using hlength
      | true =>
        have hlong := limit_le_of_endsAtCap hends
        have hcut : (joinLines lines).length ≤ limit.toNat - 1 ↔ limit.toNat = 0 := by omega
        rw [if_pos rfl, List.take_eq_self_iff, hcut, eq_self_iff_true, true_imp_iff]
    · have hlong : limit.toNat < (joinLines lines).length := by
        unfold Fits at hfits
        omega
      simp only [hfits, not_false_eq_true, false_and, false_or, true_and]
      have hcut : (if endsAtCap limit.toNat lines = true then limit.toNat - 1 else limit.toNat) ≤
          (joinLines lines).length := by
        split <;> omega
      generalize (if endsAtCap limit.toNat lines = true then limit.toNat - 1 else limit.toNat) =
        cut at *
      apply Iff.intro
      · intro hstored
        rw [← hstored]
        exact ⟨List.take_prefix _ _, List.length_take_of_le hcut⟩
      · rintro ⟨hbegins, hlength⟩
        rw [List.prefix_iff_eq_take.mp hbegins, hlength]
  · have hnone : ¬ KeepsTail limit events := by
      intro ⟨tail, htail, _⟩
      have hfits := htail.fits
      unfold Fits at hfits
      omega
    simp [hnone, hlimit]

/-- The line that carries the failure is the one that is dropped. -/
theorem not_keepsTail_of_failure :
    ¬ KeepsTail 16 [⟨"log", "extracting orders".toList⟩, ⟨"log", "[error] denied".toList⟩] := by
  rw [keepsTail_iff_tailOf (by decide)]
  decide

end DbtCraft.Routers.IngestLog

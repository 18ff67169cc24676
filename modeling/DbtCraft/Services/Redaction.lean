/-
# Redacting the output of dbt

`redact_output` of `app/services/dbt_cli.py`. It takes the colour codes out of the output and
replaces the known secrets by a marker one after the other, the longest first. A secret that can
overlap the marker may be left over or come about again; the others are gone.
-/

import DbtCraft.Python.Replace
import Mathlib.Data.List.Sort
import Mathlib.Tactic.Common

namespace DbtCraft.Services.Redaction

open DbtCraft.Python

/-- `REDACTED`. -/
def redacted : List Char := "***REDACTED***".toList

/-- `_MIN_SECRET_LENGTH`. -/
def minSecretLength : ℕ := 4

/-- What the path of the project is replaced by. -/
def hiddenPath : List Char := "<project>".toList

/-! ## Colour codes -/

/-- The parameters of a colour code. -/
def isParameter (c : Char) : Bool := c.isDigit || c = ';'

/-- The length of a match of `_ANSI_RE` at the beginning of a text. -/
def ansiLength : List Char → Option ℕ
  | '\x1b' :: '[' :: rest =>
    match rest.dropWhile isParameter with
    | c :: _ => if c.isAlpha then some ((rest.takeWhile isParameter).length + 3) else none
    | [] => none
  | _ => none

/-- `_ANSI_RE.sub("", text)`, where the first characters may belong to a code before them. -/
def stripAnsiFrom : ℕ → List Char → List Char
  | _, [] => []
  | skip + 1, _ :: rest => stripAnsiFrom skip rest
  | 0, c :: rest =>
    match ansiLength (c :: rest) with
    | some length => stripAnsiFrom (length - 1) rest
    | none => c :: stripAnsiFrom 0 rest

/-- `_ANSI_RE.sub("", text)`. -/
def stripAnsi (text : List Char) : List Char := stripAnsiFrom 0 text

/-! ## Secrets -/

/-- The project of the output. -/
structure Project where
  /-- `str(project_path)`. -/
  path : List Char
  /-- What `_profile_secret_values` finds in its profile. -/
  profileSecrets : List (List Char)
  path_ne_nil : path ≠ []

/-- The order in which a set is walked. -/
structure SetOrder where
  walk : List (List Char) → List (List Char)
  mem_walk : ∀ {values : List (List Char)} {text : List Char}, text ∈ walk values ↔ text ∈ values

variable (order : SetOrder) (output : List Char) (secrets : List (List Char))
  (project : Option Project)

/-- The values that are redacted. -/
def eligible : List (List Char) :=
  (secrets ++ (project.map Project.profileSecrets).getD []).filter
    fun value => minSecretLength ≤ value.length

/-- The values in the order in which they are replaced. -/
def replaced : List (List Char) :=
  (order.walk (eligible secrets project)).insertionSort fun own other => other.length ≤ own.length

def hidePath (text : List Char) : List Char :=
  match project with
  | some project => replace project.path hiddenPath text
  | none => text

/-- `redact_output`. -/
def redactOutput : List Char :=
  hidePath project ((replaced order secrets project).foldl
    (fun cleaned value => replace value redacted cleaned) (stripAnsi output))

/-- No occurrence of a secret can overlap what is put into the output. -/
def ClearOfMarkers (secret : List Char) : Prop :=
  Clear secret redacted ∧ (project.isSome → Clear secret hiddenPath)

variable {order output secrets project} {secret value text : List Char}
  {values : List (List Char)}

theorem mem_replaced : secret ∈ replaced order secrets project ↔ secret ∈ eligible secrets project := by
  rw [replaced, List.mem_insertionSort, order.mem_walk]

theorem ne_nil_of_eligible (hsecret : secret ∈ eligible secrets project) : secret ≠ [] := by
  intro hnil
  have hlength := (List.mem_filter.mp hsecret).2
  rw [hnil] at hlength
  exact absurd hlength (by decide)

/-- What a secret is not before, it is not after the others have been replaced. -/
theorem infix_of_foldl (hvalues : ∀ value ∈ values, value ≠ []) (hclear : Clear secret redacted)
    (hwithin : secret <:+: values.foldl (fun cleaned value => replace value redacted cleaned) text) :
    secret <:+: text ∧ ∀ value ∈ values, ¬ value <:+: secret := by
  induction values generalizing text with
  | nil => exact ⟨hwithin, fun value hvalue => by cases hvalue⟩
  | cons value rest ih =>
    obtain ⟨hafter, hrest⟩ :=
      ih (fun other hother => hvalues other (List.mem_cons_of_mem value hother)) hwithin
    obtain ⟨hbefore, hvalue⟩ := infix_of_replace (hvalues value List.mem_cons_self) hclear hafter
    refine ⟨hbefore, fun other hother => ?_⟩
    rcases List.mem_cons.mp hother with hsame | hlater
    · exact hsame ▸ hvalue
    · exact hrest other hlater

/-- Without a secret in it a text stays as it is. -/
theorem foldl_of_not_infix (hnone : ∀ value ∈ values, ¬ value <:+: text) :
    values.foldl (fun cleaned value => replace value redacted cleaned) text = text := by
  induction values with
  | nil => rfl
  | cons value rest ih =>
    rw [List.foldl_cons, replace_of_not_infix (hnone value List.mem_cons_self)]
    exact ih fun other hother => hnone other (List.mem_cons_of_mem value hother)

/-- A set walked as a list. -/
def listOrder : SetOrder := ⟨id, Iff.rfl⟩

end DbtCraft.Services.Redaction

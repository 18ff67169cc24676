/-
# String literals in SQL

A statement is read one character at a time, as a scanner of SQL reads it: single quotes
delimit string literals, in which a quote is written twice, double quotes delimit
identifiers, and comments run to the end of a line or nest between `/*` and `*/`. A
`{{ … }}` that a later step fills in is passed over. What stands outside of literals, and
what literals hold, can then be told apart.
-/

import Mathlib.Data.List.Basic
import Mathlib.Tactic.Common

namespace DbtCraft.Sql

/-- Where a scanner is in a statement. -/
inductive LexState
  | code
  | /-- After a `-`, a `/` or an opening brace in code. -/
    dash
  | slash
  | brace
  | line
  | block (depth : ℕ)
  | blockStar (depth : ℕ)
  | blockSlash (depth : ℕ)
  | identifier
  | literal
  | /-- After a quote in a literal, which ends it unless another one follows. -/
    closing
  | placeholder
  | placeholderClosing
  | placeholderText
  | placeholderEscape
  deriving DecidableEq

/-- What a character of a statement is. -/
inductive Mark
  | outside (c : Char)
  | opening
  | content (c : Char)
  | closing
  deriving DecidableEq

/-- The state after a character of code. -/
def ofCode (c : Char) : LexState :=
  if c = '\'' then .literal
  else if c = '"' then .identifier
  else if c = '-' then .dash
  else if c = '/' then .slash
  else if c = '\x7b' then .brace
  else .code

/-- A character of code. -/
def stepCode (c : Char) : List Mark × LexState :=
  (if c = '\'' then [.opening] else [.outside c], ofCode c)

/-- A character of a comment between `/*` and `*/`. -/
def ofBlock (depth : ℕ) (c : Char) : LexState :=
  if c = '*' then .blockStar depth else if c = '/' then .blockSlash depth else .block depth

def step : LexState → Char → List Mark × LexState
  | .code, c => stepCode c
  | .dash, c => if c = '-' then ([.outside c], .line) else stepCode c
  | .slash, c => if c = '*' then ([.outside c], .block 0) else stepCode c
  | .brace, c => if c = '\x7b' then ([.outside c], .placeholder) else stepCode c
  | .line, c => ([.outside c], if c = '\n' then .code else .line)
  | .block depth, c => ([.outside c], ofBlock depth c)
  | .blockStar depth, c =>
    ([.outside c],
      if c = '/' then (if depth = 0 then .code else .block (depth - 1)) else ofBlock depth c)
  | .blockSlash depth, c =>
    ([.outside c], if c = '*' then .block (depth + 1) else ofBlock depth c)
  | .identifier, c => ([.outside c], if c = '"' then .code else .identifier)
  | .literal, c => if c = '\'' then ([], .closing) else ([.content c], .literal)
  | .closing, c =>
    if c = '\'' then ([.content c], .literal) else (.closing :: (stepCode c).1, (stepCode c).2)
  | .placeholder, c =>
    ([.outside c],
      if c = '"' then .placeholderText else if c = '\x7d' then .placeholderClosing
      else .placeholder)
  | .placeholderClosing, c =>
    ([.outside c],
      if c = '"' then .placeholderText else if c = '\x7d' then .code else .placeholder)
  | .placeholderText, c =>
    ([.outside c],
      if c = '\\' then .placeholderEscape else if c = '"' then .placeholder
      else .placeholderText)
  | .placeholderEscape, c => ([.outside c], .placeholderText)

/-- The end of a statement. -/
def finish : LexState → List Mark
  | .closing => [.closing]
  | _ => []

/-- The marks of a statement, from a state on. -/
def marksFrom : LexState → List Char → List Mark
  | state, [] => finish state
  | state, c :: rest => (step state c).1 ++ marksFrom (step state c).2 rest

/-- The marks of a statement. -/
def marks (statement : List Char) : List Mark := marksFrom .code statement

/-! ## Writing -/

/-- A text in a literal. -/
def doubled (text : List Char) : List Char :=
  text.flatMap fun c => if c = '\'' then ['\'', '\''] else [c]

/-- A literal. -/
def quoted (text : List Char) : List Char := '\'' :: doubled text ++ ['\'']

theorem doubled_quote (text : List Char) : doubled ('\'' :: text) = '\'' :: '\'' :: doubled text := rfl

theorem doubled_cons {c : Char} (hquote : c ≠ '\'') (text : List Char) :
    doubled (c :: text) = c :: doubled text := by
  simp [doubled, hquote]

/-- A mark as it stands in a statement. -/
def Mark.write : Mark → List Char
  | .outside c => [c]
  | .opening => ['\'']
  | .content c => if c = '\'' then ['\'', '\''] else [c]
  | .closing => ['\'']

/-- A quote that has been read but not yet been understood. -/
def pending : LexState → List Char
  | .closing => ['\'']
  | _ => []

theorem write_stepCode (c : Char) : (stepCode c).1.flatMap Mark.write = [c] := by
  unfold stepCode
  split
  next hquote => simp [Mark.write, hquote]
  · simp [Mark.write]

theorem pending_ofCode (c : Char) : pending (ofCode c) = [] := by
  unfold ofCode
  split_ifs <;> rfl

/-- A step loses no character. -/
theorem write_step (state : LexState) (c : Char) :
    (step state c).1.flatMap Mark.write ++ pending (step state c).2 = pending state ++ [c] := by
  have hcode : (stepCode c).1.flatMap Mark.write ++ pending (stepCode c).2 = [c] := by
    rw [write_stepCode, show (stepCode c).2 = ofCode c from rfl, pending_ofCode]
    rfl
  have hblock : ∀ depth, [c] ++ pending (ofBlock depth c) = [c] := by
    intro depth
    unfold ofBlock
    split_ifs <;> rfl
  cases state with
  | code => exact hcode
  | dash =>
    simp only [step]
    split
    · rfl
    · exact hcode
  | slash =>
    simp only [step]
    split
    · rfl
    · exact hcode
  | brace =>
    simp only [step]
    split
    · rfl
    · exact hcode
  | line =>
    simp only [step]
    split <;> rfl
  | block depth => exact hblock depth
  | blockStar depth =>
    simp only [step]
    split_ifs
    · rfl
    · rfl
    · exact hblock depth
  | blockSlash depth =>
    simp only [step]
    split
    · rfl
    · exact hblock depth
  | identifier =>
    simp only [step]
    split <;> rfl
  | literal =>
    simp only [step]
    split
    next hquote => simp [pending, hquote]
    next hquote => simp [Mark.write, pending, hquote]
  | closing =>
    simp only [step]
    split
    next hquote => simp [Mark.write, pending, hquote]
    · rw [List.flatMap_cons, List.append_assoc, hcode]
      rfl
  | placeholder =>
    simp only [step]
    split_ifs <;> rfl
  | placeholderClosing =>
    simp only [step]
    split_ifs <;> rfl
  | placeholderText =>
    simp only [step]
    split_ifs <;> rfl
  | placeholderEscape => rfl

theorem write_marksFrom (state : LexState) (statement : List Char) :
    (marksFrom state statement).flatMap Mark.write = pending state ++ statement := by
  induction statement generalizing state with
  | nil => cases state <;> rfl
  | cons c rest ih =>
    unfold marksFrom
    rw [List.flatMap_append, ih, ← List.append_assoc, write_step, List.append_assoc]
    rfl

/-- The marks of a statement say all there is in it. -/
theorem write_marks (statement : List Char) :
    (marks statement).flatMap Mark.write = statement := write_marksFrom .code statement

/-! ## Literals -/

/-- The state is one of code. -/
def LexState.inCode : LexState → Bool
  | .code | .dash | .slash | .brace => true
  | _ => false

/-- A quote in code opens a literal. -/
theorem step_quote {state : LexState} (hcode : state.inCode = true) :
    step state '\'' = ([.opening], .literal) := by
  cases state <;> first | rfl | cases hcode

theorem marksFrom_literal_quote (rest : List Char) :
    marksFrom .literal ('\'' :: rest) = marksFrom .closing rest := by
  simp only [marksFrom, step, if_true]
  rfl

theorem marksFrom_literal {c : Char} (hquote : c ≠ '\'') (rest : List Char) :
    marksFrom .literal (c :: rest) = .content c :: marksFrom .literal rest := by
  simp only [marksFrom, step, if_neg hquote]
  rfl

theorem marksFrom_closing_quote (rest : List Char) :
    marksFrom .closing ('\'' :: rest) = .content '\'' :: marksFrom .literal rest := by
  simp only [marksFrom, step, if_true]
  rfl

theorem marksFrom_doubled (text rest : List Char) :
    marksFrom .literal (doubled text ++ rest) = text.map .content ++ marksFrom .literal rest := by
  induction text with
  | nil => rfl
  | cons c text ih =>
    by_cases hquote : c = '\''
    · rw [hquote, doubled_quote, List.cons_append, List.cons_append, marksFrom_literal_quote,
        marksFrom_closing_quote, ih]
      rfl
    · rw [doubled_cons hquote, List.cons_append, marksFrom_literal hquote, ih]
      rfl

/-- A literal ends before any character but a quote. -/
theorem marksFrom_closing {rest : List Char} (hrest : rest.head? ≠ some '\'') :
    marksFrom .closing rest = .closing :: marksFrom .code rest := by
  cases rest with
  | nil => rfl
  | cons c rest =>
    have hquote : c ≠ '\'' := fun hquote => hrest (congrArg some hquote)
    simp only [marksFrom, step, if_neg hquote]
    rfl

/-- A literal that stands in code is read back as its text. -/
theorem marksFrom_quoted {state : LexState} (text : List Char) {rest : List Char}
    (hcode : state.inCode = true) (hrest : rest.head? ≠ some '\'') :
    marksFrom state (quoted text ++ rest) =
      Mark.opening :: text.map Mark.content ++ Mark.closing :: marksFrom .code rest := by
  have hopen : marksFrom state ('\'' :: (doubled text ++ ['\''] ++ rest)) =
      .opening :: marksFrom .literal (doubled text ++ ['\''] ++ rest) := by
    rw [marksFrom, step_quote hcode]
    rfl
  show marksFrom state ('\'' :: (doubled text ++ ['\''] ++ rest)) = _
  rw [hopen, List.append_assoc, marksFrom_doubled]
  show Mark.opening :: (text.map .content ++ marksFrom .literal ('\'' :: rest)) = _
  rw [marksFrom_literal_quote, marksFrom_closing hrest]
  rfl

end DbtCraft.Sql

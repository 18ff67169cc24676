/-
# Statements with holes

A statement in which some places are left open. Each hole is filled with a literal, and
where all holes stand in code the marks of the filled statement are those of the open
one, with a literal in place of each hole.
-/

import DbtCraft.Sql.Marks

namespace DbtCraft.Sql

universe uν

variable {ν : Type uν}

/-- A character, or a hole for a text. -/
inductive Item (ν : Type uν)
  | char (c : Char)
  | hole (name : ν)
  deriving DecidableEq

/-- An item, with a literal in the hole. -/
def Item.fill (text : ν → List Char) : Item ν → List Char
  | .char c => [c]
  | .hole name => quoted (text name)

/-- The statement with its holes filled. -/
def fill (text : ν → List Char) (items : List (Item ν)) : List Char :=
  items.flatMap (Item.fill text)

def Item.name : Item ν → Option ν
  | .char _ => none
  | .hole name => some name

/-- The holes, in order. -/
def holes (items : List (Item ν)) : List ν := items.filterMap Item.name

/-- The characters up to the first hole. -/
def leading : List (Item ν) → List Char
  | .char c :: rest => c :: leading rest
  | _ => []

variable {text : ν → List Char} {items rest : List (Item ν)}

@[simp]
theorem fill_nil : fill text [] = [] := rfl

@[simp]
theorem fill_char (c : Char) : fill text (.char c :: rest) = c :: fill text rest := rfl

@[simp]
theorem fill_hole (name : ν) :
    fill text (.hole name :: rest) = quoted (text name) ++ fill text rest := rfl

@[simp]
theorem fill_append : fill text (items ++ rest) = fill text items ++ fill text rest :=
  List.flatMap_append

@[simp]
theorem fill_chars (chars : List Char) : fill text (chars.map .char) = chars := by
  induction chars with
  | nil => rfl
  | cons c chars ih => rw [List.map_cons, fill_char, ih]

@[simp]
theorem holes_append : holes (items ++ rest) = holes items ++ holes rest :=
  List.filterMap_append

@[simp]
theorem holes_chars (chars : List Char) : holes (chars.map (Item.char (ν := ν))) = [] := by
  induction chars with
  | nil => rfl
  | cons c chars ih => exact ih

/-- A filled statement has a quote at the first hole, if not before. -/
theorem takeWhile_fill :
    (fill text items).takeWhile (· ≠ '\'') = (leading items).takeWhile (· ≠ '\'') := by
  induction items with
  | nil => rfl
  | cons item rest ih =>
    cases item with
    | hole name => rfl
    | char c =>
      rw [fill_char, leading, List.takeWhile_cons, List.takeWhile_cons, ih]

/-! ## Reading -/

/-- A piece of a statement: a mark, or the literal of a hole. -/
inductive Piece (ν : Type uν)
  | plain (mark : Mark)
  | literal (name : ν)

/-- The marks of a piece. -/
def Piece.marks (text : ν → List Char) : Piece ν → List Mark
  | .plain mark => [mark]
  | .literal name => Mark.opening :: (text name).map Mark.content ++ [Mark.closing]

def Piece.name : Piece ν → Option ν
  | .plain _ => none
  | .literal name => some name

/-- The items can follow a hole: neither a quote nor another hole comes first. -/
def canFollow : List (Item ν) → Bool
  | [] => true
  | .char c :: _ => c ≠ '\''
  | .hole _ :: _ => false

/-- The pieces of a statement whose holes all stand in code. -/
def readItems : LexState → List (Item ν) → Option (List (Piece ν))
  | state, [] => some ((finish state).map .plain)
  | state, .char c :: rest =>
    (readItems (step state c).2 rest).map ((step state c).1.map .plain ++ ·)
  | state, .hole name :: rest =>
    if state.inCode && canFollow rest then (readItems .code rest).map (.literal name :: ·)
    else none

variable {state : LexState} {pieces : List (Piece ν)}

theorem marks_plain (marks : List Mark) :
    (marks.map .plain).flatMap (Piece.marks text) = marks := by
  induction marks with
  | nil => rfl
  | cons mark marks ih =>
    rw [List.map_cons, List.flatMap_cons, ih]
    rfl

theorem names_plain (marks : List Mark) :
    (marks.map (Piece.plain (ν := ν))).filterMap Piece.name = [] := by
  induction marks with
  | nil => rfl
  | cons mark marks ih => exact ih

/-- What can follow a hole does not begin with a quote. -/
theorem head_fill (hrest : canFollow rest = true) : (fill text rest).head? ≠ some '\'' := by
  cases rest with
  | nil => exact nofun
  | cons item rest =>
    cases item with
    | hole name => cases hrest
    | char c =>
      intro hhead
      exact of_decide_eq_true hrest (Option.some_inj.mp hhead)

/-- The marks of a filled statement are those of its pieces. -/
theorem marksFrom_fill (hread : readItems state items = some pieces) :
    marksFrom state (fill text items) = pieces.flatMap (Piece.marks text) := by
  induction items generalizing state pieces with
  | nil =>
    have hpieces := Option.some_inj.mp hread
    rw [← hpieces, marks_plain]
    rfl
  | cons item rest ih =>
    cases item with
    | char c =>
      obtain ⟨pieces', hrest, hpieces⟩ := Option.map_eq_some_iff.mp hread
      rw [fill_char, ← hpieces, List.flatMap_append, marks_plain, ← ih hrest]
      rfl
    | hole name =>
      simp only [readItems] at hread
      split at hread
      next hplace =>
        obtain ⟨hcode, hfollow⟩ := Bool.and_eq_true_iff.mp hplace
        obtain ⟨pieces', hrest, hpieces⟩ := Option.map_eq_some_iff.mp hread
        rw [fill_hole, marksFrom_quoted (text name) hcode (head_fill hfollow), ih hrest,
          ← hpieces, List.flatMap_cons]
        simp [Piece.marks]
      · cases hread

/-- A statement has one literal for each hole. -/
theorem names_readItems (hread : readItems state items = some pieces) :
    pieces.filterMap Piece.name = holes items := by
  induction items generalizing state pieces with
  | nil =>
    have hpieces := Option.some_inj.mp hread
    rw [← hpieces, names_plain]
    rfl
  | cons item rest ih =>
    cases item with
    | char c =>
      obtain ⟨pieces', hrest, hpieces⟩ := Option.map_eq_some_iff.mp hread
      rw [← hpieces, List.filterMap_append, names_plain, ih hrest]
      rfl
    | hole name =>
      simp only [readItems] at hread
      split at hread
      · obtain ⟨pieces', hrest, hpieces⟩ := Option.map_eq_some_iff.mp hread
        rw [← hpieces, List.filterMap_cons, ih hrest]
        rfl
      · cases hread

end DbtCraft.Sql

/-
# Paths

The part of `pathlib` that works on the text of a path: a path is read into its
components, joined with another one and taken apart.
-/

import DbtCraft.Python.Text

namespace DbtCraft.Python

/-- `PurePosixPath`. -/
structure Path where
  absolute : Bool
  parts : List String
  deriving DecidableEq

namespace Path

/-- The text between the slashes. -/
def components (text : List Char) : List (List Char) :=
  text.foldr (fun c found =>
    match c, found with
    | '/', found => [] :: found
    | c, first :: rest => (c :: first) :: rest
    | c, [] => [[c]]) [[]]

/-- `Path(text)`: empty components and single dots are dropped. -/
def ofString (text : String) : Path where
  absolute := startsWith text "/"
  parts := ((components text.toList).map String.ofList).filter fun part => part ≠ "" ∧ part ≠ "."

/-- `path / other`: an absolute path takes the place of what stands before it. -/
def join (path other : Path) : Path :=
  if other.absolute then other else ⟨path.absolute, path.parts ++ other.parts⟩

/-- `path / name`. -/
def child (path : Path) (name : String) : Path := path.join (ofString name)

/-- `path.parent`. -/
def parent (path : Path) : Path := ⟨path.absolute, path.parts.dropLast⟩

/-- `path.name`. -/
def name (path : Path) : String := path.parts.getLast?.getD ""

/-- The path names an entry of its parent. -/
def namesEntry (path : Path) : Bool :=
  match path.parts.getLast? with
  | some name => name ≠ ".."
  | none => false

/-- `str(path)`. -/
def str (path : Path) : String :=
  let body := String.intercalate "/" path.parts
  if path.absolute then "/" ++ body else if body = "" then "." else body

/-- `path.stem` and `path.suffix`: a dot at either end of the name begins no suffix. -/
def stemSuffix (path : Path) : String × String :=
  let letters := path.name.toList.reverse
  let suffix := letters.takeWhile (· ≠ '.')
  match letters.dropWhile (· ≠ '.') with
  | _ :: first :: stem =>
    if suffix = [] then (path.name, "")
    else (String.ofList (first :: stem).reverse, String.ofList ('.' :: suffix.reverse))
  | _ => (path.name, "")

/-- `path.suffix.lower()`. -/
def suffixLower (path : Path) : String :=
  String.ofList (path.stemSuffix.2.toList.map Char.toLower)

/-- `path.relative_to(base)`. -/
def relativeTo (path base : Path) : Option Path :=
  if path.absolute = base.absolute ∧ base.parts <+: path.parts then
    some ⟨false, path.parts.drop base.parts.length⟩
  else none

/-! ## Components -/

theorem components_of_not_mem {text : List Char} (htext : '/' ∉ text) :
    components text = [text] := by
  induction text with
  | nil => rfl
  | cons c rest ih =>
    rw [List.mem_cons, not_or] at htext
    have hrest := ih htext.2
    unfold components at hrest ⊢
    rw [List.foldr_cons, hrest]
    split
    next hslash => exact absurd rfl htext.1
    next first others hsplit =>
      cases hsplit
      rfl
    next hsplit => cases hsplit

/-- No slash is left in a component. -/
theorem not_mem_of_mem_components {text part : List Char} (hpart : part ∈ components text) :
    '/' ∉ part := by
  induction text generalizing part with
  | nil =>
    rw [List.mem_singleton.mp hpart]
    exact List.not_mem_nil
  | cons c rest ih =>
    unfold components at hpart ih
    rw [List.foldr_cons] at hpart
    split at hpart
    · rcases List.mem_cons.mp hpart with rfl | hlater
      · exact List.not_mem_nil
      · exact ih hlater
    next first others hslash hsplit =>
      rcases List.mem_cons.mp hpart with rfl | hlater
      · rw [List.mem_cons, not_or]
        exact ⟨fun hsame => hslash hsame.symm, ih (hsplit ▸ List.mem_cons_self)⟩
      · exact ih (hsplit ▸ List.mem_cons_of_mem _ hlater)
    next hslash hsplit =>
      rw [List.mem_singleton.mp hpart, List.mem_singleton]
      exact fun hsame => hslash hsame.symm

/-- A text without a slash that is neither empty nor a dot is one component. -/
theorem ofString_of_not_mem {name : String} (hslash : '/' ∉ name.toList) (hempty : name ≠ "")
    (hdot : name ≠ ".") : ofString name = ⟨false, [name]⟩ := by
  have hstart : startsWith name "/" = false := by
    cases hlist : name.toList with
    | nil => simp [startsWith, hlist]
    | cons first rest =>
      have hfirst : first ≠ '/' := fun hfirst => hslash (hlist ▸ hfirst ▸ List.mem_cons_self)
      have hstarts : ['/'].isPrefixOf (first :: rest) = false := by
        simp [List.isPrefixOf, Ne.symm hfirst]
      simpa [startsWith, hlist] using hstarts
  unfold ofString
  rw [hstart, components_of_not_mem hslash]
  simp [hempty, hdot]

end Path

end DbtCraft.Python

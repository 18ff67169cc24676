/-
# Replacing a text by a marker

`text.replace(old, new)`, and which words are left after it. A word that shares no end with the
marker, does not lie in it and does not contain it occurs in the result only where it occurs in
one of the pieces between the markers. A text that arrives in parts is split as it comes, with its
last piece carried on.
-/

import Mathlib.Data.List.Infix
import Mathlib.Data.Nat.Notation

namespace DbtCraft.Python

universe uα

variable {α : Type uα}

/-! ## Words between markers -/

/-- No occurrence of a word can overlap a marker. -/
structure Clear (word marker : List α) : Prop where
  inside : ¬ word <:+: marker
  around : ¬ marker <:+: word
  front : ∀ first rest, word = first ++ rest → first ≠ [] → ¬ first <:+ marker
  back : ∀ first rest, word = first ++ rest → rest ≠ [] → ¬ rest <+: marker

/-- A piece, and pieces with a marker before each. -/
def joined (piece : List α) (rest : List (List α × List α)) : List α :=
  piece ++ rest.flatMap fun item => item.1 ++ item.2

variable {word marker piece tail : List α} {rest : List (List α × List α)}

theorem joined_cons {own : List α} :
    joined piece ((marker, own) :: rest) = piece ++ (marker ++ joined own rest) := by
  rw [joined, joined, List.flatMap_cons, List.append_assoc]

/-- A word behind a clear marker. -/
theorem infix_of_marker (hclear : Clear word marker) (hword : word <:+: piece ++ (marker ++ tail)) :
    word <:+: piece ∨ word <:+: tail := by
  rcases List.infix_append_iff_ne_nil.mp hword with hpiece | hlater |
    ⟨first, last, -, hlast, hsplit, -, hstarts⟩
  · exact .inl hpiece
  · rcases List.infix_append_iff_ne_nil.mp hlater with hmarker | htail |
      ⟨first, last, hfirst, -, hsplit, hsuffix, -⟩
    · exact absurd hmarker hclear.inside
    · exact .inr htail
    · exact absurd hsuffix (hclear.front first last hsplit hfirst)
  · rcases List.prefix_or_prefix_of_prefix hstarts (List.prefix_append marker tail) with
      hshort | hlong
    · exact absurd hshort (hclear.back first last hsplit hlast)
    · refine absurd ?_ hclear.around
      rw [hsplit]
      exact List.infix_append_of_infix_right hlong.isInfix

/-- A word that is clear of the markers lies in one of the pieces. -/
theorem infix_joined (hclear : ∀ item ∈ rest, Clear word item.1) (hword : word <:+: joined piece rest) :
    word <:+: piece ∨ ∃ item ∈ rest, word <:+: item.2 := by
  induction rest generalizing piece with
  | nil =>
    rw [joined, List.flatMap_nil, List.append_nil] at hword
    exact .inl hword
  | cons item others ih =>
    obtain ⟨marker, own⟩ := item
    rw [joined_cons] at hword
    rcases infix_of_marker (hclear _ List.mem_cons_self) hword with hpiece | hlater
    · exact .inl hpiece
    · right
      rcases ih (fun other hother => hclear other (List.mem_cons_of_mem _ hother)) hlater with
        hown | ⟨other, hother, hwithin⟩
      · exact ⟨_, List.mem_cons_self, hown⟩
      · exact ⟨other, List.mem_cons_of_mem _ hother, hwithin⟩

/-- The markers between the pieces. -/
theorem intercalate_eq_joined (first : List α) (others : List (List α)) :
    marker.intercalate (first :: others) =
      joined first (others.map fun piece => (marker, piece)) := by
  induction others generalizing first with
  | nil => rw [List.intercalate_singleton, joined, List.map_nil, List.flatMap_nil, List.append_nil]
  | cons next more ih =>
    rw [List.intercalate_cons_cons, ih next, List.map_cons, joined_cons, List.append_assoc]

/-! ## Replacing -/

variable [DecidableEq α]

/-- `text.split(old)`, where the first characters may belong to an occurrence before them. -/
def piecesFrom (old : List α) : ℕ → List α → List (List α)
  | _, [] => [[]]
  | skip + 1, _ :: rest => piecesFrom old skip rest
  | 0, c :: rest =>
    if old.isPrefixOf (c :: rest) then [] :: piecesFrom old (old.length - 1) rest
    else
      match piecesFrom old 0 rest with
      | piece :: others => (c :: piece) :: others
      | [] => [[c]]

/-- `text.split(old)`, for a text to look for that is not empty. -/
def pieces (old text : List α) : List (List α) := piecesFrom old 0 text

/-- `text.replace(old, new)`. -/
def replace (old new text : List α) : List α := new.intercalate (pieces old text)

variable {old new text : List α} {skip : ℕ}

theorem piecesFrom_ne_nil : piecesFrom old skip text ≠ [] := by
  induction text generalizing skip with
  | nil =>
    cases skip with
    | zero => exact List.cons_ne_nil _ _
    | succ skip => exact List.cons_ne_nil _ _
  | cons c rest ih =>
    cases skip with
    | succ skip => exact ih
    | zero =>
      rw [piecesFrom]
      split
      · exact List.cons_ne_nil _ _
      · split
        · exact List.cons_ne_nil _ _
        · exact List.cons_ne_nil _ _

/-- The first piece begins the text, and nothing is found in it. -/
theorem piecesFrom_zero (hold : old ≠ []) : ∃ piece others,
    piecesFrom old 0 text = piece :: others ∧ piece <+: text ∧ ¬ old <:+: piece := by
  induction text with
  | nil => exact ⟨[], [], rfl, List.prefix_rfl, fun hwithin => hold (List.infix_nil.mp hwithin)⟩
  | cons c rest ih =>
    rw [piecesFrom]
    split
    · exact ⟨[], _, rfl, List.nil_prefix, fun hwithin => hold (List.infix_nil.mp hwithin)⟩
    next hnot =>
      obtain ⟨piece, others, hpieces, hstarts, hnone⟩ := ih
      rw [hpieces]
      have hlonger : c :: piece <+: c :: rest := (List.prefix_cons_inj c).mpr hstarts
      refine ⟨c :: piece, others, rfl, hlonger, fun hwithin => ?_⟩
      rcases List.infix_cons_iff.mp hwithin with hstart | hlater
      · exact hnot (List.isPrefixOf_iff_prefix.mpr (hstart.trans hlonger))
      · exact hnone hlater

/-- Every piece is a part of the text, and nothing is found in it. -/
theorem infix_of_mem_piecesFrom (hold : old ≠ []) (hpiece : piece ∈ piecesFrom old skip text) :
    piece <:+: text ∧ ¬ old <:+: piece := by
  induction text generalizing skip with
  | nil =>
    have hnil : piece = [] := by
      cases skip with
      | zero => exact List.mem_singleton.mp hpiece
      | succ skip => exact List.mem_singleton.mp hpiece
    rw [hnil]
    exact ⟨List.infix_rfl, fun hwithin => hold (List.infix_nil.mp hwithin)⟩
  | cons c rest ih =>
    cases skip with
    | succ skip =>
      obtain ⟨hwithin, hnone⟩ := ih hpiece
      exact ⟨hwithin.trans (List.suffix_cons c rest).isInfix, hnone⟩
    | zero =>
      obtain ⟨first, others, hpieces, hstarts, hnone⟩ :
          ∃ first others, piecesFrom old 0 (c :: rest) = first :: others ∧
            first <+: c :: rest ∧ ¬ old <:+: first := piecesFrom_zero hold
      have hlater : ∀ {skip}, piece ∈ piecesFrom old skip rest →
          piece <:+: c :: rest ∧ ¬ old <:+: piece := by
        intro skip hmem
        obtain ⟨hwithin, hclear⟩ := ih hmem
        exact ⟨hwithin.trans (List.suffix_cons c rest).isInfix, hclear⟩
      rw [hpieces] at hpiece
      rcases List.mem_cons.mp hpiece with hfirst | hothers
      · rw [hfirst]
        exact ⟨hstarts.isInfix, hnone⟩
      · rw [piecesFrom] at hpieces
        split at hpieces
        · exact hlater ((List.cons.inj hpieces).2 ▸ hothers)
        · split at hpieces
          next hrest =>
            apply hlater
            rw [hrest]
            exact List.mem_cons_of_mem _ ((List.cons.inj hpieces).2 ▸ hothers)
          next hrest => exact absurd hrest piecesFrom_ne_nil

/-- What is clear of the marker was in the text before, and is not what was replaced. -/
theorem infix_of_replace (hold : old ≠ []) (hclear : Clear word new)
    (hword : word <:+: replace old new text) : word <:+: text ∧ ¬ old <:+: word := by
  obtain ⟨first, others, hpieces, -, -⟩ :
      ∃ first others, pieces old text = first :: others ∧
        first <+: text ∧ ¬ old <:+: first := piecesFrom_zero hold
  have hparts : ∀ piece ∈ first :: others, word <:+: piece →
      word <:+: text ∧ ¬ old <:+: word := by
    intro piece hpiece hwithin
    obtain ⟨hpart, hnone⟩ := infix_of_mem_piecesFrom hold (hpieces ▸ hpiece)
    exact ⟨hwithin.trans hpart, fun hsame => hnone (hsame.trans hwithin)⟩
  have hmarkers : ∀ item ∈ others.map fun piece => (new, piece), Clear word item.1 := by
    intro item hitem
    obtain ⟨piece, -, hsame⟩ := List.mem_map.mp hitem
    exact hsame ▸ hclear
  rw [replace, hpieces, intercalate_eq_joined] at hword
  rcases infix_joined hmarkers hword with hfirst | ⟨item, hitem, hwithin⟩
  · exact hparts first List.mem_cons_self hfirst
  · obtain ⟨piece, hpiece, hsame⟩ := List.mem_map.mp hitem
    subst hsame
    exact hparts piece (List.mem_cons_of_mem first hpiece) hwithin

theorem pieces_of_not_infix (hnone : ¬ old <:+: text) : pieces old text = [text] := by
  rw [pieces]
  induction text with
  | nil => rfl
  | cons c rest ih =>
    have hstart : ¬ old.isPrefixOf (c :: rest) = true := fun hstarts =>
      hnone ( List.IsPrefix.isInfix (List.isPrefixOf_iff_prefix.mp hstarts))
    rw [piecesFrom, if_neg hstart, ih fun hwithin =>
      hnone (hwithin.trans ( List.IsSuffix.isInfix (List.suffix_cons c rest)))]

/-- A text in which nothing is found stays as it is. -/
theorem replace_of_not_infix (hnone : ¬ old <:+: text) : replace old new text = text := by
  rw [replace, pieces_of_not_infix hnone, List.intercalate_singleton]

/-! ## Splitting what arrives in parts -/

variable {rest more : List α}

theorem eq_of_pieces_eq_singleton {piece : List α} (hpieces : pieces old text = [piece]) :
    piece = text := by
  induction text generalizing piece with
  | nil => exact (List.cons.inj hpieces).1.symm
  | cons c rest ih =>
    rw [pieces, piecesFrom] at hpieces
    split at hpieces
    · exact absurd (List.cons.inj hpieces).2 piecesFrom_ne_nil
    · split at hpieces
      next found others hrest =>
        obtain ⟨rfl, rfl⟩ := List.cons.inj hpieces
        rw [ih hrest]
      next hnone => exact absurd hnone piecesFrom_ne_nil

/-- The pieces of a text that goes on are those of its beginning but the last, and those of the
last with what comes. -/
theorem piecesFrom_append (hskip : skip ≤ text.length) : piecesFrom old skip (text ++ more) =
    (piecesFrom old skip text).dropLast ++
      pieces old ((piecesFrom old skip text).getLast?.getD [] ++ more) := by
  induction text generalizing skip with
  | nil =>
    rw [Nat.le_zero.mp hskip]
    rfl
  | cons c rest ih =>
    cases skip with
    | succ skip => exact ih (Nat.le_of_succ_le_succ hskip)
    | zero =>
      by_cases hone : ∃ piece, pieces old (c :: rest) = [piece]
      · obtain ⟨piece, hpiece⟩ := hone
        have hsame := eq_of_pieces_eq_singleton hpiece
        rw [pieces] at hpiece
        rw [hpiece, hsame]
        rfl
      -- A separator is found in the text, so none begins here that the text does not have whole.
      have hlong : old.length ≤ (c :: rest).length := by
        by_contra hshort
        exact hone ⟨_, pieces_of_not_infix fun hwithin => hshort hwithin.length_le⟩
      have hstart : old.isPrefixOf (c :: (rest ++ more)) = old.isPrefixOf (c :: rest) := by
        rw [Bool.eq_iff_iff, List.isPrefixOf_iff_prefix, List.isPrefixOf_iff_prefix,
          ← List.cons_append]
        exact ⟨fun hprefix => List.prefix_of_prefix_length_le hprefix (List.prefix_append _ _) hlong,
          fun hprefix => hprefix.trans (List.prefix_append _ _)⟩
      rw [pieces] at hone
      rw [List.cons_append, piecesFrom, piecesFrom, hstart]
      rw [piecesFrom] at hone
      split
      next hfound =>
        have hskip : old.length - 1 ≤ rest.length := Nat.pred_le_pred hlong
        rw [ih hskip, List.dropLast_cons_of_ne_nil piecesFrom_ne_nil]
        cases hlater : piecesFrom old (old.length - 1) rest with
        | nil => exact absurd hlater piecesFrom_ne_nil
        | cons piece others => rfl
      next hfound =>
        rw [if_neg hfound] at hone
        rw [ih (Nat.zero_le _)]
        cases hlater : piecesFrom old 0 rest with
        | nil => exact absurd hlater piecesFrom_ne_nil
        | cons piece others =>
          cases others with
          | nil => exact absurd ⟨_, by rw [hlater]⟩ hone
          | cons next others => rfl

theorem pieces_ne_nil : pieces old text ≠ [] := piecesFrom_ne_nil

/-- **Carrying the last piece on.** -/
theorem pieces_append (text more : List α) : pieces old (text ++ more) =
    (pieces old text).dropLast ++ pieces old ((pieces old text).getLast?.getD [] ++ more) :=
  piecesFrom_append (Nat.zero_le _)

theorem piecesFrom_length (text : List α) :
    piecesFrom old text.length (text ++ rest) = pieces old rest := by
  induction text with
  | nil => rfl
  | cons c text ih => exact ih

/-- A piece ends where the separator begins. -/
theorem pieces_append_cons {c : α} {later : List α} (htext : ∀ d ∈ text, d ≠ c) :
    pieces (c :: later) (text ++ (c :: later ++ rest)) = text :: pieces (c :: later) rest := by
  induction text with
  | nil =>
    have hstart : (c :: later).isPrefixOf (c :: (later ++ rest)) = true :=
      List.isPrefixOf_iff_prefix.mpr (List.prefix_append (c :: later) rest)
    rw [List.nil_append, List.cons_append, pieces, piecesFrom, if_pos hstart]
    exact congrArg _ (piecesFrom_length later)
  | cons d text ih =>
    obtain ⟨hd, htext⟩ := List.forall_mem_cons.mp htext
    have hstart : ¬ (c :: later).isPrefixOf (d :: (text ++ (c :: later ++ rest))) = true := by
      rw [List.isPrefixOf_iff_prefix, List.cons_prefix_cons]
      exact fun hsame => hd hsame.1.symm
    have hrest := ih htext
    rw [pieces] at hrest ⊢
    rw [List.cons_append, piecesFrom, if_neg hstart, hrest]

end DbtCraft.Python

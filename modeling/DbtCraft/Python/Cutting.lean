/-
# Cutting a text at the top level

A text is cut at the separators that a reader of it meets in its first state: outside of every
quotation and every bracket. Two readers cut a text in the same way just if they are in their
first states at the same separators.
-/

import Mathlib.Data.List.Infix
import Mathlib.Tactic.Common

namespace DbtCraft.Python

/-- A reader of a text, with the separator that it passes over in its first state. -/
structure Tracker (σ α : Type) where
  start : σ
  step : σ → α → σ
  separator : α
  step_separator : step start separator = start

namespace Tracker

/-! ## Closed texts -/

section Closed

variable {σ α : Type} {tracker : Tracker σ α} {own text : List α}

/-- A text that is one piece, and after which the reader is back in the first state. -/
structure Closed (tracker : Tracker σ α) (text : List α) : Prop where
  back : text.foldl tracker.step tracker.start = tracker.start
  uncut : ∀ first rest, text = first ++ tracker.separator :: rest →
    first.foldl tracker.step tracker.start ≠ tracker.start

theorem Closed.append (hown : tracker.Closed own) (htext : tracker.Closed text) :
    tracker.Closed (own ++ text) where
  back := by rw [List.foldl_append, hown.back, htext.back]
  uncut := by
    intro before after hsplit
    rcases List.append_eq_append_iff.mp hsplit with
      ⟨middle, hbefore, hmiddle⟩ | ⟨middle, hown', hmiddle⟩
    · rw [hbefore, List.foldl_append, hown.back]
      exact htext.uncut middle after hmiddle
    · cases middle with
      | nil =>
        rw [List.append_nil] at hown'
        rw [← hown', hown.back]
        exact fun _ => htext.uncut [] after hmiddle.symm rfl
      | cons c more =>
        obtain ⟨hc, _⟩ := List.cons.inj hmiddle
        exact hown.uncut before more (hc ▸ hown')

/-- Letters that the reader passes over, and that are not the separator. -/
theorem closed_of_step (hplain : ∀ c ∈ text,
    tracker.step tracker.start c = tracker.start ∧ c ≠ tracker.separator) :
    tracker.Closed text where
  back := by
    induction text with
    | nil => rfl
    | cons c rest ih =>
      rw [List.foldl_cons, (hplain c List.mem_cons_self).1]
      exact ih fun d hd => hplain d (List.mem_cons_of_mem c hd)
  uncut := by
    intro before after hsplit
    have hmem : tracker.separator ∈ text := by
      rw [hsplit]
      exact List.mem_append_right before List.mem_cons_self
    exact absurd rfl (hplain _ hmem).2

end Closed

/-! ## Cutting -/

variable {σ τ α : Type} [DecidableEq σ] [DecidableEq τ] [DecidableEq α]

/-- The pieces that are complete, and the last one. -/
def cut (tracker : Tracker σ α) : σ → (piece : List α) → List α → List (List α) × List α
  | _, piece, [] => ([], piece)
  | state, piece, c :: rest =>
    if c = tracker.separator ∧ state = tracker.start then
      let later := cut tracker tracker.start [] rest
      (piece :: later.1, later.2)
    else
      cut tracker (tracker.step state c) (piece ++ [c]) rest

/-- All the pieces of a text. -/
def pieces (tracker : Tracker σ α) (text : List α) : List (List α) :=
  (tracker.cut tracker.start [] text).1 ++ [(tracker.cut tracker.start [] text).2]

variable {tracker : Tracker σ α} {other : Tracker τ α} {state : σ} {state' : τ}
  {piece text first : List α}

theorem cut_cons_pos {rest : List α} :
    tracker.cut tracker.start piece (tracker.separator :: rest) =
      (piece :: (tracker.cut tracker.start [] rest).1, (tracker.cut tracker.start [] rest).2) := by
  rw [cut, if_pos ⟨rfl, rfl⟩]

theorem cut_cons_neg {c : α} {rest : List α}
    (hcut : ¬ (c = tracker.separator ∧ state = tracker.start)) :
    tracker.cut state piece (c :: rest) =
      tracker.cut (tracker.step state c) (piece ++ [c]) rest := by
  rw [cut, if_neg hcut]

/-- What is cut and joined again. -/
theorem intercalate_cut : [tracker.separator].intercalate
    ((tracker.cut state piece text).1 ++ [(tracker.cut state piece text).2]) = piece ++ text := by
  induction text generalizing state piece with
  | nil => simp [cut, List.intercalate]
  | cons c rest ih =>
    by_cases hcut : c = tracker.separator ∧ state = tracker.start
    · obtain ⟨hc, hstate⟩ := hcut
      have hrest := @ih tracker.start []
      rw [hc, hstate, cut_cons_pos]
      cases hparts : (tracker.cut tracker.start [] rest).1 with
      | nil =>
        rw [hparts] at hrest
        simpa [List.intercalate] using hrest
      | cons next more =>
        rw [hparts] at hrest
        simpa [List.intercalate] using hrest
    · rw [cut_cons_neg hcut, ih, List.append_assoc, List.singleton_append]

theorem intercalate_pieces (tracker : Tracker σ α) (text : List α) :
    [tracker.separator].intercalate (tracker.pieces text) = text :=
  intercalate_cut

/-- The first piece begins with what has been read of it. -/
theorem piece_prefix (tracker : Tracker σ α) (state : σ) (piece text : List α) :
    ∃ later others,
    (tracker.cut state piece text).1 ++ [(tracker.cut state piece text).2] =
      (piece ++ later) :: others := by
  induction text generalizing state piece with
  | nil => exact ⟨[], [], by rw [cut, List.nil_append, List.append_nil]⟩
  | cons c rest ih =>
    by_cases hcut : c = tracker.separator ∧ state = tracker.start
    · obtain ⟨hc, hstate⟩ := hcut
      refine ⟨[], tracker.pieces rest, ?_⟩
      rw [hc, hstate, cut_cons_pos, List.cons_append, List.append_nil, pieces]
    · obtain ⟨later, others, hpieces⟩ := @ih (tracker.step state c) (piece ++ [c])
      refine ⟨c :: later, others, ?_⟩
      rw [cut_cons_neg hcut, hpieces, List.append_assoc, List.singleton_append]

/-- A separator at which only one of two readers cuts. -/
theorem cut_ne {rest : List α} (hstate : state' ≠ other.start) :
    tracker.cut tracker.start piece (tracker.separator :: rest) ≠
      other.cut state' piece (tracker.separator :: rest) := by
  intro hsame
  rw [cut_cons_pos, cut_cons_neg fun hcut => hstate hcut.2] at hsame
  obtain ⟨later, others, hpieces⟩ := piece_prefix other
    (other.step state' tracker.separator) (piece ++ [tracker.separator]) rest
  rw [← hsame, List.cons_append] at hpieces
  have hlength := congrArg List.length (List.cons.inj hpieces).1
  rw [List.length_append, List.length_append, List.length_singleton] at hlength
  omega

/-- **Two readers cut a text in the same way** just if they are in their first states at the same
separators. -/
theorem cut_eq_iff (piece : List α) (hseparator : other.separator = tracker.separator) :
    tracker.cut state piece text = other.cut state' piece text ↔
      ∀ first rest, text = first ++ tracker.separator :: rest →
        (first.foldl tracker.step state = tracker.start ↔
          first.foldl other.step state' = other.start) := by
  induction text generalizing state state' piece with
  | nil =>
    apply iff_of_true rfl
    intro first rest htext
    exact absurd htext.symm (List.append_ne_nil_of_right_ne_nil first (List.cons_ne_nil _ rest))
  | cons c more ih =>
    -- the separators of the text are its first letter, if it is one, and those of the rest
    have hafter : (∀ first rest, c :: more = first ++ tracker.separator :: rest →
        (first.foldl tracker.step state = tracker.start ↔
          first.foldl other.step state' = other.start)) ↔
        (c = tracker.separator → (state = tracker.start ↔ state' = other.start)) ∧
        ∀ first rest, more = first ++ tracker.separator :: rest →
          (first.foldl tracker.step (tracker.step state c) = tracker.start ↔
            first.foldl other.step (other.step state' c) = other.start) := by
      apply Iff.intro
      · intro hall
        apply And.intro
        · intro hc
          exact hall [] more (by rw [hc, List.nil_append])
        · intro first rest hmore
          exact hall (c :: first) rest (by rw [hmore, List.cons_append])
      · intro hall first rest htext
        cases first with
        | nil => exact hall.1 (List.cons.inj htext).1
        | cons head first =>
          obtain ⟨hhead, hmore⟩ := List.cons.inj htext
          rw [← hhead]
          exact hall.2 first rest hmore
    rw [hafter]
    by_cases hc : c = tracker.separator
    · have hcut : c = other.separator := hc.trans hseparator.symm
      by_cases hown : state = tracker.start
      · by_cases hother : state' = other.start
        · rw [hown, hother, cut, cut, if_pos ⟨hc, rfl⟩, if_pos ⟨hcut, rfl⟩, hc,
            tracker.step_separator, ← hseparator, other.step_separator]
          have hrest := @ih tracker.start other.start []
          rw [← hseparator] at hrest
          rw [← hrest, Prod.ext_iff, Prod.ext_iff]
          simp
        · apply iff_of_false
          · rw [hown, hc]
            exact cut_ne hother
          · exact fun hall => hother ((hall.1 hc).mp hown)
      · by_cases hother : state' = other.start
        · apply iff_of_false
          · rw [hother, hcut]
            exact (cut_ne hown).symm
          · exact fun hall => hown ((hall.1 hc).mpr hother)
        · rw [cut_cons_neg fun hboth => hown hboth.2,
            cut_cons_neg fun hboth => hother hboth.2, ih]
          simp [hown, hother]
    · rw [cut_cons_neg fun hboth => hc hboth.1,
        cut_cons_neg fun hboth => hc (hboth.1.trans hseparator), ih]
      simp [hc]

theorem pieces_eq_iff (hseparator : other.separator = tracker.separator) :
    tracker.pieces text = other.pieces text ↔
      ∀ first rest, text = first ++ tracker.separator :: rest →
        (first.foldl tracker.step tracker.start = tracker.start ↔
          first.foldl other.step other.start = other.start) := by
  rw [← cut_eq_iff [] hseparator, pieces, pieces]
  apply Iff.intro
  · intro hpieces
    obtain ⟨hparts, hlast⟩ := List.append_inj' hpieces rfl
    exact Prod.ext hparts (List.cons.inj hlast).1
  · intro hcut
    rw [hcut]

/-- What is read without a cut belongs to the piece. -/
theorem cut_append (piece text : List α)
    (huncut : ∀ before after, first = before ++ tracker.separator :: after →
      before.foldl tracker.step state ≠ tracker.start) :
    tracker.cut state piece (first ++ text) =
      tracker.cut (first.foldl tracker.step state) (piece ++ first) text := by
  induction first generalizing state piece with
  | nil => rw [List.nil_append, List.append_nil, List.foldl_nil]
  | cons c more ih =>
    have hcut : ¬ (c = tracker.separator ∧ state = tracker.start) := fun hboth =>
      huncut [] more (by rw [hboth.1, List.nil_append]) hboth.2
    have hmore : ∀ before after, more = before ++ tracker.separator :: after →
        before.foldl tracker.step (tracker.step state c) ≠ tracker.start := by
      intro before after hsplit
      exact huncut (c :: before) after (by rw [hsplit, List.cons_append])
    rw [List.cons_append, cut_cons_neg hcut, ih _ hmore, List.foldl_cons, List.append_assoc,
      List.singleton_append]

/-- Closed pieces that are joined and cut again. -/
theorem pieces_intercalate {closed : List (List α)}
    (hclosed : ∀ piece ∈ closed, tracker.Closed piece)
    (hne : closed ≠ []) : tracker.pieces ([tracker.separator].intercalate closed) = closed := by
  induction closed with
  | nil => exact absurd rfl hne
  | cons piece others ih =>
    have hpiece := hclosed piece List.mem_cons_self
    cases others with
    | nil =>
      have hcut := cut_append [] [] hpiece.uncut
      rw [List.append_nil] at hcut
      simp [List.intercalate, pieces, hcut, cut]
    | cons next more =>
      have hcut := cut_append []
        (tracker.separator :: [tracker.separator].intercalate (next :: more)) hpiece.uncut
      have hrest := ih (fun own hown => hclosed own (List.mem_cons_of_mem piece hown))
        (List.cons_ne_nil next more)
      have htext : [tracker.separator].intercalate (piece :: next :: more) =
          piece ++ tracker.separator :: [tracker.separator].intercalate (next :: more) := by
        simp [List.intercalate]
      rw [pieces] at hrest ⊢
      rw [htext, hcut, hpiece.back, List.nil_append, cut_cons_pos, List.cons_append, hrest]

end Tracker

end DbtCraft.Python

/-
# Collecting what is reachable

A traversal keeps the vertices it has collected and a list of those it still has to look
at. What is stored at a vertex names the vertices behind it, and nothing is stored at some
of the vertices that are named. The invariant says that the two together are on the way to
exactly the vertices that can be reached; a traversal in any order keeps it by the rules
below, and is exact when nothing is left to look at.
-/

import Mathlib.Data.Set.Insert
import Mathlib.Logic.Relation

namespace DbtCraft.Math.Traversal

open Relation

universe uv uδ

variable {V : Type uv} {δ : Type uδ}

/-- An edge between vertices at which something is stored. -/
def Edge (lookup : V → Option δ) (next : δ → List V) (source target : V) : Prop :=
  ∃ data, lookup source = some data ∧ target ∈ next data ∧ (lookup target).isSome

/-- A vertex is one of those to start with, or lies behind one of them. -/
def Reached (lookup : V → Option δ) (next : δ → List V) (start : List V) (vertex : V) : Prop :=
  ∃ first ∈ start, (lookup first).isSome ∧ ReflTransGen (Edge lookup next) first vertex

/-- What the collected vertices and those still to look at have to do with the vertices
that can be reached. -/
structure Invariant (lookup : V → Option δ) (next : δ → List V) (start : List V)
    (collected : Set V) (pending : List V) : Prop where
  sound : ∀ vertex ∈ collected, Reached lookup next start vertex
  promising : ∀ vertex ∈ pending, (lookup vertex).isSome → Reached lookup next start vertex
  started : ∀ vertex ∈ start, (lookup vertex).isSome → vertex ∈ collected ∨ vertex ∈ pending
  closed : ∀ source ∈ collected, ∀ target, Edge lookup next source target →
    target ∈ collected ∨ target ∈ pending

variable {lookup : V → Option δ} {next : δ → List V} {start pending : List V}
  {collected : Set V} {vertex : V} {data : δ}

theorem Reached.behind {source : V} (hreached : Reached lookup next start source)
    (hedge : Edge lookup next source vertex) : Reached lookup next start vertex := by
  obtain ⟨first, hfirst, hstored, hpath⟩ := hreached
  exact ⟨first, hfirst, hstored, hpath.tail hedge⟩

/-- What is behind a vertex by at least one edge is reached from the vertices it names. -/
theorem reached_next_iff {source : V} (hsource : lookup source = some data) :
    Reached lookup next (next data) vertex ↔ TransGen (Edge lookup next) source vertex := by
  rw [TransGen.head'_iff]
  apply Iff.intro
  · rintro ⟨first, hfirst, hstored, hpath⟩
    exact ⟨first, ⟨data, hsource, hfirst, hstored⟩, hpath⟩
  · rintro ⟨first, ⟨own, hown, hfirst, hstored⟩, hpath⟩
    rw [hsource] at hown
    cases hown
    exact ⟨first, hfirst, hstored, hpath⟩

/-- A traversal starts with nothing collected. -/
theorem Invariant.init (hpending : ∀ vertex, vertex ∈ pending ↔ vertex ∈ start) :
    Invariant lookup next start ∅ pending where
  sound _ hvertex := absurd hvertex (Set.notMem_empty _)
  promising vertex hvertex hstored := ⟨vertex, (hpending vertex).mp hvertex, hstored, .refl⟩
  started vertex hvertex _ := .inr ((hpending vertex).mpr hvertex)
  closed _ hsource := absurd hsource (Set.notMem_empty _)

/-- A vertex that is collected already, or at which nothing is stored, is passed over. -/
theorem Invariant.skip (hinv : Invariant lookup next start collected (vertex :: pending))
    (hskip : vertex ∈ collected ∨ lookup vertex = none) :
    Invariant lookup next start collected pending := by
  have hrest : ∀ other, (lookup other).isSome → other ∈ collected ∨ other ∈ vertex :: pending →
      other ∈ collected ∨ other ∈ pending := by
    intro other hstored hother
    rcases hother with hcollected | hpending
    · exact .inl hcollected
    · rcases List.mem_cons.mp hpending with rfl | hpending
      · rcases hskip with hcollected | hnone
        · exact .inl hcollected
        · simp [hnone] at hstored
      · exact .inr hpending
  exact {
    sound := hinv.sound
    promising := fun other hother => hinv.promising other (List.mem_cons_of_mem _ hother)
    started := fun other hother hstored => hrest other hstored (hinv.started other hother hstored)
    closed := fun source hsource target hedge =>
      hrest target hedge.choose_spec.2.2 (hinv.closed source hsource target hedge) }

/-- A vertex is collected, and what it names is looked at in some order. -/
theorem Invariant.take {following : List V}
    (hinv : Invariant lookup next start collected (vertex :: pending))
    (hdata : lookup vertex = some data)
    (hfollowing : ∀ other, other ∈ following ↔ other ∈ next data ∨ other ∈ pending) :
    Invariant lookup next start (insert vertex collected) following := by
  have hreached : Reached lookup next start vertex :=
    hinv.promising vertex List.mem_cons_self (by rw [hdata]; rfl)
  have hrest : ∀ other, other ∈ collected ∨ other ∈ vertex :: pending →
      other ∈ insert vertex collected ∨ other ∈ following := by
    intro other hother
    rcases hother with hcollected | hpending
    · exact .inl (Set.mem_insert_of_mem _ hcollected)
    · rcases List.mem_cons.mp hpending with rfl | hpending
      · exact .inl (Set.mem_insert _ _)
      · exact .inr ((hfollowing other).mpr (.inr hpending))
  exact {
    sound := by
      intro other hother
      rcases Set.mem_insert_iff.mp hother with rfl | hcollected
      · exact hreached
      · exact hinv.sound other hcollected
    promising := by
      intro other hother hstored
      rcases (hfollowing other).mp hother with hnext | hpending
      · exact hreached.behind ⟨data, hdata, hnext, hstored⟩
      · exact hinv.promising other (List.mem_cons_of_mem _ hpending) hstored
    started := fun other hother hstored => hrest other (hinv.started other hother hstored)
    closed := by
      intro source hsource target hedge
      rcases Set.mem_insert_iff.mp hsource with rfl | hcollected
      · obtain ⟨own, hown, htarget, -⟩ := hedge
        rw [hdata] at hown
        cases hown
        exact .inr ((hfollowing target).mpr (.inl htarget))
      · exact hrest target (hinv.closed source hcollected target hedge) }

/-- With nothing left to look at, exactly what can be reached is collected. -/
theorem Invariant.exact (hinv : Invariant lookup next start collected []) :
    vertex ∈ collected ↔ Reached lookup next start vertex := by
  apply Iff.intro (hinv.sound vertex)
  rintro ⟨first, hfirst, hstored, hpath⟩
  have hin : first ∈ collected :=
    (hinv.started first hfirst hstored).resolve_right List.not_mem_nil
  induction hpath with
  | refl => exact hin
  | tail _ hedge ih => exact (hinv.closed _ ih _ hedge).resolve_right List.not_mem_nil

end DbtCraft.Math.Traversal

/-
# Labelled machines and their runs

A machine is an initial state and a partial step function on labelled events.
An event that is not enabled in a state is refused, so all the nondeterminism
of a modelled system (the scheduler, the network, the user) is in the choice of
the event list.

Runs carry a condition on their steps. The unrestricted runs are the runs under
the condition that always holds; the runs of interest in a conditional result
are those whose every step satisfied a side condition when it was taken. Both
share the same induction rules.
-/

import Mathlib.Data.Option.Basic
import Mathlib.Tactic.Common

namespace DbtCraft.Math

universe uσ uε uτ uδ

/-- A deterministic labelled machine with refusals. -/
structure Machine (σ : Type uσ) (ε : Type uε) where
  /-- The state in which every run starts. -/
  init : σ
  /-- One step; `none` refuses the event. -/
  step : σ → ε → Option σ

namespace Machine

variable {σ : Type uσ} {ε : Type uε} (M : Machine σ ε)

/-- `M.Path allowed events state`: the events lead from the initial state to
`state`, and each of them satisfied `allowed` in the state it was taken from. -/
inductive Path (allowed : σ → ε → Prop) : List ε → σ → Prop
  | /-- The empty run stays at the initial state. -/
    start : Path allowed [] M.init
  | /-- One more permitted and enabled event. -/
    extend {events : List ε} {source target : σ} {event : ε}
      (prior : Path allowed events source) (permitted : allowed source event)
      (realized : M.step source event = some target) :
      Path allowed (events ++ [event]) target

/-- The side condition of an unrestricted run. -/
def anyStep (_ : σ) (_ : ε) : Prop := True

/-- A state some unrestricted run reaches. -/
def Reachable (state : σ) : Prop := ∃ events, M.Path anyStep events state

variable {M} {allowed permissive : σ → ε → Prop} {events : List ε} {state : σ}

/-- A run under a condition is a run under every weaker one. -/
theorem Path.mono (hweaker : ∀ s e, allowed s e → permissive s e)
    (hpath : M.Path allowed events state) : M.Path permissive events state := by
  induction hpath with
  | start => exact .start
  | extend _ permitted realized ih => exact .extend ih (hweaker _ _ permitted) realized

/-- **The invariant rule.** What holds initially and is preserved by every
permitted step holds at the end of every run. -/
theorem Path.invariant {P : σ → Prop} (hinit : P M.init)
    (hstep : ∀ {s e t}, P s → allowed s e → M.step s e = some t → P t)
    (hpath : M.Path allowed events state) : P state := by
  induction hpath with
  | start => exact hinit
  | extend _ permitted realized ih => exact hstep ih permitted realized

/-- The invariant rule for properties that also read the events so far. -/
theorem Path.invariant_events {P : List ε → σ → Prop} (hinit : P [] M.init)
    (hstep : ∀ {past s e t}, P past s → allowed s e → M.step s e = some t →
      P (past ++ [e]) t)
    (hpath : M.Path allowed events state) : P events state := by
  induction hpath with
  | start => exact hinit
  | extend _ permitted realized ih => exact hstep ih permitted realized

/-- A condition that follows on the steps from the states of an invariant holds in the run. -/
theorem Path.mono_of_invariant {P : σ → Prop} (hinit : P M.init)
    (hstep : ∀ {s e t}, P s → allowed s e → M.step s e = some t → P t)
    (hweaker : ∀ {s e t}, P s → M.step s e = some t → allowed s e → permissive s e)
    (hpath : M.Path allowed events state) : M.Path permissive events state := by
  induction hpath with
  | start => exact .start
  | extend prior permitted realized ih =>
    exact ih.extend (hweaker (prior.invariant hinit hstep) realized permitted) realized

/-- Conditions that agree on the steps from the states of an invariant have the same runs. -/
theorem path_congr {P : σ → Prop} (hinit : P M.init)
    (hstep : ∀ {s e t}, P s → allowed s e → M.step s e = some t → P t)
    (hagree : ∀ {s e t}, P s → M.step s e = some t → (allowed s e ↔ permissive s e)) :
    M.Path allowed events state ↔ M.Path permissive events state := by
  apply Iff.intro
  · exact Path.mono_of_invariant hinit hstep fun hP realized => (hagree hP realized).mp
  · exact Path.mono_of_invariant hinit
      (fun hP permitted realized => hstep hP ((hagree hP realized).mpr permitted) realized)
      fun hP realized => (hagree hP realized).mpr

variable (M) in
/-- The condition that a step leads to a state with the property. -/
def LeadsTo (P : σ → Prop) (source : σ) (event : ε) : Prop :=
  ∀ target, M.step source event = some target → P target

/-! ## Executing a run -/

variable (M) in
/-- Run an event list from a state, refusing as soon as one event is refused. -/
def runFrom : σ → List ε → Option σ
  | state, [] => some state
  | state, event :: rest => (M.step state event).bind fun next => runFrom next rest

theorem runFrom_append (past future : List ε) (state : σ) :
    M.runFrom state (past ++ future) =
      (M.runFrom state past).bind fun middle => M.runFrom middle future := by
  induction past generalizing state with
  | nil => rfl
  | cons event rest ih =>
    rw [List.cons_append, runFrom, runFrom]
    cases M.step state event with
    | none => rfl
    | some next => exact ih next

private theorem path_append_of_runFrom :
    ∀ {future past : List ε} {source target : σ}, M.Path anyStep past source →
      M.runFrom source future = some target → M.Path anyStep (past ++ future) target := by
  intro future
  induction future with
  | nil =>
    intro past source target hpath hrun
    cases hrun
    simpa using hpath
  | cons event rest ih =>
    intro past source target hpath hrun
    obtain ⟨next, realized, hrest⟩ := Option.bind_eq_some_iff.mp hrun
    simpa using ih (hpath.extend trivial realized) hrest

/-- An executed event list is an unrestricted run. -/
theorem path_of_runFrom (hrun : M.runFrom M.init events = some state) :
    M.Path anyStep events state := by
  simpa using path_append_of_runFrom (.start : M.Path anyStep [] M.init) hrun

variable (M) in
/-- Run an event list from a state, also refusing a step that breaks a decidable
condition. -/
def runUnder (allowed : σ → ε → Prop) [∀ s e, Decidable (allowed s e)] :
    σ → List ε → Option σ
  | state, [] => some state
  | state, event :: rest =>
    if allowed state event then
      (M.step state event).bind fun next => runUnder allowed next rest
    else none

private theorem path_append_of_runUnder [∀ s e, Decidable (allowed s e)] :
    ∀ {future past : List ε} {source target : σ}, M.Path allowed past source →
      M.runUnder allowed source future = some target →
      M.Path allowed (past ++ future) target := by
  intro future
  induction future with
  | nil =>
    intro past source target hpath hrun
    cases hrun
    simpa using hpath
  | cons event rest ih =>
    intro past source target hpath hrun
    rw [runUnder] at hrun
    split at hrun
    next permitted =>
      obtain ⟨next, realized, hrest⟩ := Option.bind_eq_some_iff.mp hrun
      simpa using ih (hpath.extend permitted realized) hrest
    · cases hrun

/-- An executed run is a run, so concrete runs are exhibited by evaluation. -/
theorem path_of_runUnder [∀ s e, Decidable (allowed s e)]
    (hrun : M.runUnder allowed M.init events = some state) :
    M.Path allowed events state := by
  simpa using path_append_of_runUnder (.start : M.Path allowed [] M.init) hrun

/-! ## Refinement -/

variable {τ : Type uτ} {δ : Type uδ} {N : Machine τ δ}

/-- A forward simulation of the permitted steps of `M` by `N`: every permitted
step of `M` is matched by finitely many steps of `N`, possibly none. -/
structure Simulation (M : Machine σ ε) (allowed : σ → ε → Prop) (N : Machine τ δ) where
  /-- How concrete and abstract states correspond. -/
  rel : σ → τ → Prop
  init : rel M.init N.init
  step : ∀ {s e t a}, rel s a → allowed s e → M.step s e = some t →
    ∃ abstractEvents b, N.runFrom a abstractEvents = some b ∧ rel t b

/-- Every run of the concrete machine is matched by a run of the abstract one
that ends in a corresponding state. -/
theorem Simulation.path (S : Simulation M allowed N)
    (hpath : M.Path allowed events state) :
    ∃ abstractState, N.Reachable abstractState ∧ S.rel state abstractState := by
  induction hpath with
  | start => exact ⟨N.init, ⟨[], .start⟩, S.init⟩
  | extend _ permitted realized ih =>
    obtain ⟨abstractSource, ⟨past, hpast⟩, hrel⟩ := ih
    obtain ⟨future, abstractTarget, hrun, hrel'⟩ := S.step hrel permitted realized
    exact ⟨abstractTarget, ⟨past ++ future, path_append_of_runFrom hpast hrun⟩, hrel'⟩

end Machine

end DbtCraft.Math

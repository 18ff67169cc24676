/-
# Reconciling stale runs

`_reconcile_stale_runs_once` of `app/main.py`, which every worker of a launch calls when it
starts, with the marker and the lock file of the launch and the rows of `dbt_runs`. A worker
may crash anywhere, and is then replaced by another one. A lock file that is there makes a
worker go on without waiting for its owner, and the marker is not looked for again behind
the lock.
-/

import DbtCraft.Math.Machine
import Mathlib.Logic.Function.Basic

namespace DbtCraft.Services.Reconciliation

open DbtCraft.Math

universe uι uρ

variable {ι : Type uι} {ρ : Type uρ}

/-! ## Workers, files and rows -/

/-- How far a worker is. -/
inductive Phase
  | idle
  | /-- Before `marker.exists()`. -/
    checking
  | /-- It has found no marker. -/
    unmarked
  | /-- It has made the lock file. -/
    locked
  | /-- `reconcile_stale_runs` is committed. -/
    reconciled
  | /-- Before `lock.unlink`. -/
    unlocking
  | serving
  | crashed
  deriving DecidableEq

/-- What a row of `dbt_runs` says. -/
inductive Row
  | absent
  | running
  | /-- `cancelled`, as the runner restarted before the command completed. -/
    interrupted
  | completed
  deriving DecidableEq

structure State (ι : Type uι) (ρ : Type uρ) where
  phase : ι → Phase
  /-- `.dbt-runner-history-reconciled-` of the launch exists. -/
  marker : Bool
  /-- `.dbt-runner-history-reconcile-` of the launch exists. -/
  lock : Bool
  rows : ρ → Row

inductive Event (ι : Type uι) (ρ : Type uρ)
  | start (worker : ι)
  | /-- `marker.exists()`. -/
    check (worker : ι)
  | /-- `os.open` with `O_CREAT` and `O_EXCL`. -/
    openLock (worker : ι)
  | /-- `reconcile_stale_runs`. -/
    reconcile (worker : ι)
  | /-- `reconcile_stale_runs` or `marker.touch` raises. -/
    raise (worker : ι)
  | touch (worker : ι)
  | unlink (worker : ι)
  | /-- A worker that serves inserts the row of a run. -/
    insert (worker : ι) (run : ρ)
  | complete (run : ρ)
  | crash (worker : ι)

/-- The update of `reconcile_stale_runs`. -/
def Row.reconciled : Row → Row
  | .running => .interrupted
  | row => row

variable [DecidableEq ι] [DecidableEq ρ]

def State.setPhase (state : State ι ρ) (worker : ι) (phase : Phase) : State ι ρ :=
  { state with phase := Function.update state.phase worker phase }

/-- One step of the workers of a launch. -/
def step (state : State ι ρ) : Event ι ρ → Option (State ι ρ)
  | .start worker =>
    match state.phase worker with
    | .idle => some (state.setPhase worker .checking)
    | _ => none
  | .check worker =>
    match state.phase worker with
    | .checking => some (state.setPhase worker (if state.marker then .serving else .unmarked))
    | _ => none
  | .openLock worker =>
    match state.phase worker with
    | .unmarked =>
      -- `FileExistsError` is answered with `None`.
      if state.lock then some (state.setPhase worker .serving)
      else some { state.setPhase worker .locked with lock := true }
    | _ => none
  | .reconcile worker =>
    match state.phase worker with
    | .locked =>
      some { state.setPhase worker .reconciled with rows := fun run => (state.rows run).reconciled }
    | _ => none
  | .raise worker =>
    match state.phase worker with
    | .locked | .reconciled => some (state.setPhase worker .unlocking)
    | _ => none
  | .touch worker =>
    match state.phase worker with
    | .reconciled => some { state.setPhase worker .unlocking with marker := true }
    | _ => none
  | .unlink worker =>
    match state.phase worker with
    | .unlocking => some { state.setPhase worker .serving with lock := false }
    | _ => none
  | .insert worker run =>
    match state.phase worker, state.rows run with
    | .serving, .absent => some { state with rows := Function.update state.rows run .running }
    | _, _ => none
  | .complete run =>
    match state.rows run with
    | .running => some { state with rows := Function.update state.rows run .completed }
    | _ => none
  | .crash worker => some (state.setPhase worker .crashed)

/-- A launch, with the rows that former launches have left. -/
def machine (rows : ρ → Row) : Machine (State ι ρ) (Event ι ρ) where
  init := { phase := fun _ => .idle, marker := false, lock := false, rows := rows }
  step := step

/-! ## The property -/

omit [DecidableEq ι] [DecidableEq ρ] in
/-- The event is a reconciliation. -/
def Event.IsReconcile : Event ι ρ → Prop
  | .reconcile _ => True
  | _ => False

omit [DecidableEq ι] [DecidableEq ρ] in
/-- The event is the insertion of a row. -/
def Event.IsInsert : Event ι ρ → Prop
  | .insert _ _ => True
  | _ => False

omit [DecidableEq ι] [DecidableEq ρ] in
/-- No reconciliation comes after another one or after the insertion of a row, and no row
of this launch is marked as interrupted. -/
structure ReconciledOnce (events : List (Event ι ρ)) (state : State ι ρ) : Prop where
  first : events.Pairwise fun earlier later =>
    later.IsReconcile → ¬ earlier.IsReconcile ∧ ¬ earlier.IsInsert
  live : ∀ worker run, .insert worker run ∈ events → state.rows run ≠ .interrupted

omit [DecidableEq ι] [DecidableEq ρ] in
/-- A worker makes the lock file only while there is no marker, nothing raises between a
reconciliation and its marker, and rows are inserted only when the marker is there. -/
def Orderly (state : State ι ρ) : Event ι ρ → Prop
  | .openLock _ => state.marker → state.lock
  | .raise worker => state.phase worker ≠ .reconciled
  | .insert _ _ => state.marker
  | _ => True

instance (state : State ι ρ) : (event : Event ι ρ) → Decidable (Orderly state event)
  | .openLock _ => inferInstanceAs (Decidable (_ → _))
  | .raise _ => inferInstanceAs (Decidable (_ ≠ _))
  | .insert _ _ => inferInstanceAs (Decidable (_ = true))
  | .start _ | .check _ | .reconcile _ | .touch _ | .unlink _ | .complete _ | .crash _ =>
    isTrue trivial

/-! ## The invariant -/

/-- The worker owns the lock file. -/
def Phase.Owns (phase : Phase) : Prop :=
  phase = .locked ∨ phase = .reconciled ∨ phase = .unlocking

omit [DecidableEq ι] [DecidableEq ρ] in
/-- What the files say of the workers, of a reconciliation that has happened and of rows
that have been inserted. -/
structure Guarded (reconciled inserted : Prop) (state : State ι ρ) : Prop where
  owned : ∀ worker, (state.phase worker).Owns → state.lock
  unique : ∀ worker other, (state.phase worker).Owns → (state.phase other).Owns → worker = other
  marked : state.marker → ∀ worker, state.phase worker ≠ .locked ∧ state.phase worker ≠ .reconciled
  done : reconciled → state.marker ∨
    state.lock ∧ ∀ worker, state.phase worker ≠ .locked ∧ state.phase worker ≠ .unlocking
  served : inserted → state.marker

variable {state next : State ι ρ} {event : Event ι ρ} {events : List (Event ι ρ)}
  {reconciled inserted : Prop} {worker : ι} {rows : ρ → Row}

omit [DecidableEq ρ] in
@[simp]
theorem setPhase_self (state : State ι ρ) (worker : ι) (phase : Phase) :
    (state.setPhase worker phase).phase worker = phase :=
  Function.update_self _ _ _

omit [DecidableEq ρ] in
theorem setPhase_of_ne {other : ι} (hother : other ≠ worker) (phase : Phase) :
    (state.setPhase worker phase).phase other = state.phase other :=
  Function.update_of_ne hother _ _

omit [DecidableEq ρ] in
/-- A worker that comes to own no file changes nothing for the others. -/
theorem Guarded.leave {phase : Phase} (hguarded : Guarded reconciled inserted state)
    (hphase : ¬ phase.Owns) : Guarded reconciled inserted (state.setPhase worker phase) := by
  have hold : ∀ other, ((state.setPhase worker phase).phase other).Owns →
      (state.phase other).Owns := by
    intro other howns
    by_cases hother : other = worker
    · subst hother
      rw [setPhase_self] at howns
      exact absurd howns hphase
    · rwa [setPhase_of_ne hother] at howns
  have hnot : ∀ other kept, kept.Owns → state.phase other ≠ kept →
      (state.setPhase worker phase).phase other ≠ kept := by
    intro other kept hkept hne
    by_cases hother : other = worker
    · subst hother
      rw [setPhase_self]
      rintro rfl
      exact hphase hkept
    · rwa [setPhase_of_ne hother]
  exact {
    owned := fun other howns => hguarded.owned other (hold other howns)
    unique := fun first other hfirst hother =>
      hguarded.unique first other (hold first hfirst) (hold other hother)
    marked := fun hmarker other =>
      ⟨hnot other _ (.inl rfl) (hguarded.marked hmarker other).1,
        hnot other _ (.inr (.inl rfl)) (hguarded.marked hmarker other).2⟩
    done := fun hdone => (hguarded.done hdone).imp_right fun hlock => ⟨hlock.1, fun other =>
      ⟨hnot other _ (.inl rfl) (hlock.2 other).1,
        hnot other _ (.inr (.inr rfl)) (hlock.2 other).2⟩⟩
    served := hguarded.served }

omit [DecidableEq ρ] in
/-- A worker comes to own the lock file, or keeps it, beside none that does. -/
theorem Guarded.hold {phase : Phase}
    (hfree : ∀ other, other ≠ worker → ¬ (state.phase other).Owns)
    (hnext : next.phase = (state.setPhase worker phase).phase) (hlock : next.lock)
    (hmarked : next.marker → phase ≠ .locked ∧ phase ≠ .reconciled)
    (hdone : reconciled → next.marker ∨ phase ≠ .locked ∧ phase ≠ .unlocking)
    (hserved : inserted → next.marker) : Guarded reconciled inserted next := by
  have hother : ∀ other, other ≠ worker → ∀ kept, kept.Owns → next.phase other ≠ kept := by
    intro other hne kept hkept hsame
    rw [hnext, setPhase_of_ne hne] at hsame
    exact hfree other hne (hsame ▸ hkept)
  have hnot : ∀ kept, kept.Owns → phase ≠ kept → ∀ other, next.phase other ≠ kept := by
    intro kept hkept hne other
    by_cases hsame : other = worker
    · subst hsame
      rwa [hnext, setPhase_self]
    · exact hother other hsame kept hkept
  have howner : ∀ other, (next.phase other).Owns → other = worker := by
    intro other howns
    by_contra hne
    exact hother other hne _ howns rfl
  exact {
    owned := fun _ _ => hlock
    unique := fun first other hfirst hother => (howner first hfirst).trans (howner other hother).symm
    marked := fun hmarker other => ⟨hnot _ (.inl rfl) (hmarked hmarker).1 other,
      hnot _ (.inr (.inl rfl)) (hmarked hmarker).2 other⟩
    done := fun hreconciled => (hdone hreconciled).imp_right fun hphase => ⟨hlock, fun other =>
      ⟨hnot _ (.inl rfl) hphase.1 other, hnot _ (.inr (.inr rfl)) hphase.2 other⟩⟩
    served := hserved }

omit [DecidableEq ι] [DecidableEq ρ] in
theorem Guarded.others (hguarded : Guarded reconciled inserted state)
    (howns : (state.phase worker).Owns) (other : ι) (hne : other ≠ worker) :
    ¬ (state.phase other).Owns :=
  fun hother => hne (hguarded.unique other worker hother howns)

omit [DecidableEq ι] [DecidableEq ρ] in
/-- A worker that is about to reconcile is the first, and nothing has been inserted. -/
theorem Guarded.fresh (hguarded : Guarded reconciled inserted state)
    (hlocked : state.phase worker = .locked) :
    state.marker = false ∧ ¬ reconciled ∧ ¬ inserted := by
  have hmarker : ¬ state.marker := fun hmarker => (hguarded.marked hmarker worker).1 hlocked
  refine ⟨Bool.eq_false_iff.mpr hmarker, ?_, fun hinserted => hmarker (hguarded.served hinserted)⟩
  intro hreconciled
  rcases hguarded.done hreconciled with hthere | ⟨-, hnone⟩
  · exact hmarker hthere
  · exact (hnone worker).1 hlocked

theorem guarded_step (hguarded : Guarded reconciled inserted state)
    (horderly : Orderly state event) (hstep : step state event = some next) :
    Guarded (reconciled ∨ event.IsReconcile) (inserted ∨ event.IsInsert) next := by
  cases event with
  | start worker =>
    simp only [step] at hstep
    split at hstep <;> cases hstep
    simpa [Event.IsReconcile, Event.IsInsert] using hguarded.leave (by simp [Phase.Owns])
  | check worker =>
    simp only [step] at hstep
    split at hstep <;> cases hstep
    have hphase : ¬ (if state.marker then Phase.serving else .unmarked).Owns := by
      split <;> simp [Phase.Owns]
    simpa [Event.IsReconcile, Event.IsInsert] using hguarded.leave hphase
  | openLock worker =>
    simp only [Event.IsReconcile, Event.IsInsert, or_false]
    simp only [step] at hstep
    split at hstep
    · split at hstep
      · cases hstep
        exact hguarded.leave (by simp [Phase.Owns])
      next hlock =>
        cases hstep
        have hmarker : ¬ state.marker := fun hmarker => hlock (horderly hmarker)
        have hreconciled : ¬ reconciled := by
          intro hreconciled
          rcases hguarded.done hreconciled with hthere | hthere
          · exact hmarker hthere
          · exact hlock hthere.1
        exact .hold (fun other _ howns => hlock (hguarded.owned other howns)) rfl rfl
          (fun hthere => absurd hthere hmarker) (fun hdone => absurd hdone hreconciled)
          hguarded.served
    · cases hstep
  | reconcile worker =>
    simp only [step] at hstep
    split at hstep <;> cases hstep
    next hphase =>
      have howns : (state.phase worker).Owns := .inl hphase
      obtain ⟨hmarker, -, hinserted⟩ := hguarded.fresh hphase
      refine .hold (hguarded.others howns) rfl (hguarded.owned worker howns) ?_ ?_ ?_
      · exact fun hthere => absurd hthere (Bool.eq_false_iff.mp hmarker)
      · exact fun _ => .inr ⟨by simp, by simp⟩
      · simp [Event.IsInsert, hinserted]
  | raise worker =>
    simp only [Event.IsReconcile, Event.IsInsert, or_false]
    simp only [step] at hstep
    split at hstep
    next hphase =>
      cases hstep
      have howns : (state.phase worker).Owns := .inl hphase
      obtain ⟨-, hreconciled, -⟩ := hguarded.fresh hphase
      exact .hold (hguarded.others howns) rfl (hguarded.owned worker howns)
        (fun _ => ⟨by simp, by simp⟩) (fun hdone => absurd hdone hreconciled) hguarded.served
    next hphase => exact absurd hphase horderly
    · cases hstep
  | touch worker =>
    simp only [Event.IsReconcile, Event.IsInsert, or_false]
    simp only [step] at hstep
    split at hstep <;> cases hstep
    next hphase =>
      have howns : (state.phase worker).Owns := .inr (.inl hphase)
      exact .hold (hguarded.others howns) rfl (hguarded.owned worker howns)
        (fun _ => ⟨by simp, by simp⟩) (fun _ => .inl rfl) (fun _ => rfl)
  | unlink worker =>
    simp only [Event.IsReconcile, Event.IsInsert, or_false]
    simp only [step] at hstep
    split at hstep <;> cases hstep
    next hphase =>
      have howns : (state.phase worker).Owns := .inr (.inr hphase)
      have hfree : ∀ other, ¬ ((state.setPhase worker .serving).phase other).Owns := by
        intro other
        by_cases hother : other = worker
        · subst hother
          simp [Phase.Owns]
        · rw [setPhase_of_ne hother]
          exact hguarded.others howns other hother
      exact {
        owned := fun other hother => absurd hother (hfree other)
        unique := fun first _ hfirst => absurd hfirst (hfree first)
        marked := fun _ other => ⟨fun hother => hfree other (.inl hother),
          fun hother => hfree other (.inr (.inl hother))⟩
        done := fun hdone => .inl ((hguarded.done hdone).resolve_right
          fun hlock => (hlock.2 worker).2 hphase)
        served := hguarded.served }
  | insert worker run =>
    simp only [step] at hstep
    split at hstep <;> cases hstep
    simp only [Event.IsReconcile, or_false]
    exact { hguarded with served := fun _ => horderly }
  | complete run =>
    simp only [step] at hstep
    split at hstep <;> cases hstep
    simp only [Event.IsReconcile, Event.IsInsert, or_false]
    exact { hguarded with }
  | crash worker =>
    cases hstep
    simpa [Event.IsReconcile, Event.IsInsert] using hguarded.leave (by simp [Phase.Owns])

/-! ## Rows -/

/-- Only a reconciliation interrupts a run, and one that is inserted is running. -/
theorem rows_step (hstep : step state event = some next) (run : ρ)
    (hrow : next.rows run = .interrupted) : event.IsReconcile ∨
      state.rows run = .interrupted ∧ ∀ worker, event ≠ .insert worker run := by
  cases event with
  | reconcile worker => exact .inl trivial
  | insert worker other =>
    simp only [step] at hstep
    split at hstep <;> cases hstep
    by_cases hrun : run = other
    · subst hrun
      simp at hrow
    · have hrow : state.rows run = .interrupted := by simpa [hrun] using hrow
      exact .inr ⟨hrow, fun _ hsame => hrun (by cases hsame; rfl)⟩
  | complete other =>
    simp only [step] at hstep
    split at hstep <;> cases hstep
    by_cases hrun : run = other
    · subst hrun
      simp at hrow
    · have hrow : state.rows run = .interrupted := by simpa [hrun] using hrow
      exact .inr ⟨hrow, by simp⟩
  | crash worker =>
    cases hstep
    exact .inr ⟨hrow, by simp⟩
  | start worker | check worker | touch worker | unlink worker =>
    simp only [step] at hstep
    split at hstep <;> cases hstep
    exact .inr ⟨hrow, by simp⟩
  | openLock worker =>
    simp only [step] at hstep
    split at hstep
    · split at hstep <;> cases hstep <;> exact .inr ⟨hrow, by simp⟩
    · cases hstep
  | raise worker =>
    simp only [step] at hstep
    split at hstep <;> cases hstep <;> exact .inr ⟨hrow, by simp⟩

/-- A reconciliation is the first, and nothing has been inserted before it. -/
theorem Guarded.first (hguarded : Guarded reconciled inserted state)
    (hevent : event.IsReconcile) (hstep : step state event = some next) :
    ¬ reconciled ∧ ¬ inserted := by
  cases event with
  | reconcile worker =>
    simp only [step] at hstep
    split at hstep <;> cases hstep
    next hphase => exact (hguarded.fresh hphase).2
  | start _ | check _ | openLock _ | raise _ | touch _ | unlink _ | insert _ _ | complete _
  | crash _ => cases hevent

/-! ## The main result -/

omit [DecidableEq ι] [DecidableEq ρ] in
/-- An event of a kind is among those so far. -/
def Happened (kind : Event ι ρ → Prop) (events : List (Event ι ρ)) : Prop :=
  ∃ event ∈ events, kind event

omit [DecidableEq ι] [DecidableEq ρ] in
theorem happened_append (kind : Event ι ρ → Prop) :
    Happened kind (events ++ [event]) = (Happened kind events ∨ kind event) := by
  simp [Happened, or_and_right, exists_or]

/-- In a launch whose steps are all orderly there is at most one reconciliation, before any
row is inserted, and no run of the launch is marked as interrupted. -/
theorem reconciledOnce_of_orderly (hpath : (machine rows).Path Orderly events state) :
    ReconciledOnce events state := by
  have hright := hpath.invariant_events
    (P := fun events state => Guarded (Happened Event.IsReconcile events)
      (Happened Event.IsInsert events) state ∧ ReconciledOnce events state)
    ⟨⟨by simp [machine, Phase.Owns], by simp [machine, Phase.Owns], by simp [machine],
        by simp [Happened], by simp [Happened]⟩, ⟨.nil, by simp⟩⟩
    fun {past source event target} hsource horderly hstep => by
      obtain ⟨hguarded, honce⟩ := hsource
      refine ⟨?_, ?_, ?_⟩
      · rw [happened_append, happened_append]
        exact guarded_step hguarded horderly hstep
      · apply List.pairwise_append.mpr
        refine ⟨honce.first, List.pairwise_singleton _ _, ?_⟩
        intro earlier hearlier later hlater hreconcile
        rw [List.mem_singleton.mp hlater] at hreconcile
        obtain ⟨hreconciled, hinserted⟩ := hguarded.first hreconcile hstep
        exact ⟨fun hkind => hreconciled ⟨earlier, hearlier, hkind⟩,
          fun hkind => hinserted ⟨earlier, hearlier, hkind⟩⟩
      · intro worker run hinsert hrow
        rcases List.mem_append.mp hinsert with hpast | hnow
        · rcases rows_step hstep run hrow with hreconcile | hrow
          · exact (hguarded.first hreconcile hstep).2 ⟨_, hpast, trivial⟩
          · exact honce.live worker run hpast hrow.1
        · have hevent := List.mem_singleton.mp hnow
          rcases rows_step hstep run hrow with hreconcile | hrow
          · rw [← hevent] at hreconcile
            exact hreconcile
          · exact hrow.2 worker hevent.symm
  exact hright.2

/-- One worker reconciles and inserts a row, another one starts afterwards. -/
def startup : List (Event Bool Unit) :=
  [.start false, .check false, .openLock false, .reconcile false, .touch false, .unlink false,
    .insert false (), .start true, .check true]

/-- The stale row of a former launch is reconciled once. -/
theorem reconciledOnce_of_startup : ∃ state,
    (machine (ι := Bool) fun () => .absent).Path Orderly startup state ∧
      ReconciledOnce startup state := by
  obtain ⟨state, hrun⟩ : ∃ state, (machine fun () => .absent).runUnder Orderly
      (machine fun () => .absent).init startup = some state := ⟨_, rfl⟩
  have hpath := Machine.path_of_runUnder hrun
  exact ⟨state, hpath, reconciledOnce_of_orderly hpath⟩

/-- Two workers find no marker. The second one makes the lock file when the first has
removed it and has inserted a row, and that run is marked as interrupted. -/
def overtaken : List (Event Bool Unit) :=
  [.start false, .start true, .check false, .check true, .openLock false, .reconcile false,
    .touch false, .unlink false, .insert false (), .openLock true, .reconcile true]

/-- A worker that is overtaken reconciles again, and interrupts a live run. -/
theorem not_reconciledOnce_of_overtaken :
    ¬ ∀ (rows : Unit → Row) (events : List (Event Bool Unit)) (state : State Bool Unit),
      (machine rows).Path Machine.anyStep events state → ReconciledOnce events state := by
  intro hclaim
  obtain ⟨state, hrun, hrow⟩ : ∃ state, (machine fun () => .absent).runFrom
      (machine fun () => .absent).init overtaken = some state ∧
        state.rows () = .interrupted := ⟨_, rfl, rfl⟩
  have honce := hclaim _ _ state (Machine.path_of_runFrom hrun)
  exact honce.live false () (by simp [overtaken]) hrow

end DbtCraft.Services.Reconciliation

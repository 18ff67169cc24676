/-
# Which cancel a run consumes

A run that reports a cancellation because of the marker should have been
cancelled itself: some cancel of its process id came after its start and before
it looked. The marker outlives the run it was aimed at, though, and a run that
starts while it is set consumes it. Attribution holds along every run of the
machine in which no child starts under a live marker of its process id.
-/

import DbtCraft.Services.CommandSteps

namespace DbtCraft.Services.Command

open DbtCraft.Math DbtCraft.Redis

universe uπ uω uρ uκ

variable {π : Type uπ} {ω : Type uω} {ρ : Type uρ} {κ : Type uκ}
  [DecidableEq π] [DecidableEq ω] [DecidableEq ρ] [DecidableEq κ]
  {deployment : Deployment π ω ρ κ} {state next : State π ω ρ κ} {event : Event π ρ κ}
  {events : List (Event π ρ κ)} {run : ρ}

/-- A cancel of the run's process id was issued after the run started and before
it looked at the marker. -/
def Attributed (deployment : Deployment π ω ρ κ) (events : List (Event π ρ κ)) (run : ρ) :
    Prop :=
  ∃ cancel started stored answered, deployment.target cancel = deployment.processId run ∧
    [Event.start run started, .mark cancel stored, .check run answered].Sublist events

/-- Every run that ended as cancelled by the marker was cancelled itself. -/
def CancelsAttributed (deployment : Deployment π ω ρ κ) (events : List (Event π ρ κ))
    (state : State π ω ρ κ) : Prop :=
  ∀ run, state.ReportsMarker run → Attributed deployment events run

/-- No child starts while a marker of its process id is live. -/
def FreshStart (deployment : Deployment π ω ρ κ) (state : State π ω ρ κ)
    (event : Event π ρ κ) : Prop :=
  match event with
  | .start run _ => state.cancelled.get (deployment.processId run) = none
  | _ => True

instance (deployment : Deployment π ω ρ κ) (state : State π ω ρ κ) (event : Event π ρ κ) :
    Decidable (FreshStart deployment state event) := by
  cases event <;> unfold FreshStart <;> infer_instance

/-! ## Attribution along fresh starts -/

/-- What the markers and reports of a state are owed to: a marker live during a
run was set after the run started, and a run that reported it was cancelled. -/
structure MarkersOwed (deployment : Deployment π ω ρ κ) (events : List (Event π ρ κ))
    (state : State π ω ρ κ) : Prop where
  /-- A running run has started. -/
  started : ∀ run exit, state.phase run = .running exit →
    ∃ stored, [Event.start run stored].Sublist events
  /-- The marker that is live during a run was set during that run. -/
  marked : ∀ run exit cancel, state.phase run = .running exit →
    state.cancelled.get (deployment.processId run) = some cancel →
    ∃ started stored, deployment.target cancel = deployment.processId run ∧
      [Event.start run started, .mark cancel stored].Sublist events
  attributed : CancelsAttributed deployment events state

omit [DecidableEq π] [DecidableEq ω] [DecidableEq ρ] [DecidableEq κ] in
theorem Attributed.snoc (hattributed : Attributed deployment events run)
    (event : Event π ρ κ) : Attributed deployment (events ++ [event]) run := by
  obtain ⟨cancel, started, stored, answered, htarget, hsublist⟩ := hattributed
  exact ⟨cancel, started, stored, answered, htarget,
    hsublist.trans (List.sublist_append_left _ _)⟩

theorem markersOwed_step (howed : MarkersOwed deployment events state)
    (hfresh : FreshStart deployment state event)
    (hstep : step deployment state event = some next) :
    MarkersOwed deployment (events ++ [event]) next where
  started run exit hrunning := by
    rcases running_of_step hstep hrunning with ⟨earlier, hbefore⟩ | ⟨stored, rfl⟩
    · obtain ⟨stored, hsublist⟩ := howed.started run earlier hbefore
      exact ⟨stored, hsublist.trans (List.sublist_append_left _ _)⟩
    · exact ⟨stored, List.sublist_append_right _ _⟩
  marked run exit cancel hrunning hmarker := by
    rcases marker_of_step hstep hmarker with hlive | ⟨rfl, htarget⟩
    · rcases running_of_step hstep hrunning with ⟨earlier, hbefore⟩ | ⟨stored, rfl⟩
      · obtain ⟨started, stored, htarget, hsublist⟩ :=
          howed.marked run earlier cancel hbefore hlive
        exact ⟨started, stored, htarget, hsublist.trans (List.sublist_append_left _ _)⟩
      · -- A run that has just started did so without a live marker.
        rw [show state.cancelled.get (deployment.processId run) = none from hfresh] at hlive
        cases hlive
    · rcases running_of_step hstep hrunning with ⟨earlier, hbefore⟩ | ⟨stored, hevent⟩
      · obtain ⟨started, hsublist⟩ := howed.started run earlier hbefore
        exact ⟨started, true, htarget, hsublist.append (List.Sublist.refl [_])⟩
      · cases hevent
  attributed run hreports := by
    rcases reportsMarker_of_step hstep hreports with
      hbefore | ⟨answered, rfl, ⟨exit, hrunning⟩, cancel, hmarker⟩
    · exact (howed.attributed run hbefore).snoc event
    · obtain ⟨started, stored, htarget, hsublist⟩ :=
        howed.marked run exit cancel hrunning hmarker
      exact ⟨cancel, started, stored, answered, htarget,
        hsublist.append (List.Sublist.refl [_])⟩

/-- **Cancel attribution.** Along every run in which no child starts under a
live marker of its process id, whatever ends as cancelled by the marker was
cancelled between its start and its end. -/
theorem cancels_attributed_of_fresh_starts
    (hpath : (machine deployment).Path (FreshStart deployment) events state) :
    CancelsAttributed deployment events state := by
  have howed : MarkersOwed deployment events state := by
    refine hpath.invariant_events (P := MarkersOwed deployment) ?_ fun h hfresh hstep =>
      markersOwed_step h hfresh hstep
    constructor
    · intro run exit hrunning
      cases hrunning
    · intro run exit cancel hrunning
      cases hrunning
    · intro run hreports
      rcases hreports with hclosing | hfinished
      · cases hclosing
      · cases hfinished
  exact howed.attributed

/-- One process id, one worker: runs and cancels of one project. -/
def oneProject : Deployment Unit Unit ℕ ℕ where
  runner _ := .runCancellable
  processId _ := ()
  worker _ := ()
  target _ := ()
  cancelWorker _ := ()

/-- A run that is cancelled while it runs, and sees it. -/
theorem cancels_attributed_of_one_cancel :
    ∃ events state, CancelsAttributed oneProject events state ∧ state.ReportsMarker 0 := by
  obtain ⟨state, hrun, hreports⟩ : ∃ state,
      (machine oneProject).runUnder (FreshStart oneProject) (machine oneProject).init
        [.start 0 true, .mark 0 true, .terminate 0, .childExit 0 (-15), .check 0 true] =
          some state ∧
      state.phase 0 = .closing .markerSeen := ⟨_, rfl, rfl⟩
  exact ⟨_, state, cancels_attributed_of_fresh_starts (Machine.path_of_runUnder hrun),
    Or.inl hreports⟩

/-! ## The condition is exact

A child that starts under a live marker can exit with code 0 and still be
reported as cancelled, by a cancel that was over before it started. -/

/-- A run that is still idle was never started. -/
theorem not_started_of_idle {allowed : State π ω ρ κ → Event π ρ κ → Prop}
    (hpath : (machine deployment).Path allowed events state) (hidle : state.phase run = .idle)
    (stored : Bool) : Event.start run stored ∉ events := by
  have hnever : state.phase run = .idle → Event.start run stored ∉ events := by
    refine hpath.invariant_events
      (P := fun events state => state.phase run = .idle → Event.start run stored ∉ events)
      (fun _ h => by cases h) ?_
    intro past source event target ih _ hstep hidle
    obtain ⟨hbefore, hevent⟩ := idle_of_step hstep hidle
    rw [List.mem_append, List.mem_singleton]
    rintro (hpast | heq)
    · exact ih hbefore hpast
    · exact hevent stored heq.symm
  exact hnever hidle

/-- A start under a live marker has a continuation in which the child exits with
code 0, is reported as cancelled, and was not cancelled. -/
theorem misattributed_of_start_under_marker {cancel : κ}
    (hpath : (machine deployment).Path Machine.anyStep events state)
    (hidle : state.phase run = .idle)
    (hmarker : state.cancelled.get (deployment.processId run) = some cancel) :
    ∃ last, (machine deployment).Path Machine.anyStep
        (events ++ [Event.start run true] ++ [Event.childExit run 0] ++ [Event.check run true]) last ∧
      last.ReportsMarker run ∧
      ¬ Attributed deployment
        (events ++ [Event.start run true] ++ [Event.childExit run 0] ++ [Event.check run true]) run := by
  obtain ⟨started, hstarted, hrunning, hlive⟩ : ∃ started,
      step deployment state (.start run true) = some started ∧
      started.phase run = .running none ∧ started.cancelled = state.cancelled := by
    refine ⟨_, if_pos hidle, ?_, rfl⟩
    rw [setPhase_phase, if_pos rfl]
  have hexited : step deployment started (.childExit run 0) =
      some (started.setPhase run (.running (some 0))) := by
    simp [step, hrunning]
  have hchecked : step deployment (started.setPhase run (.running (some 0))) (.check run true) =
      some ((started.setPhase run (.running (some 0))).conclude deployment run .markerSeen) := by
    have hcancelled : (started.setPhase run (.running (some 0))).isCancelled
        (deployment.processId run) true = true := by
      simp [State.isCancelled, State.setPhase, hlive, hmarker]
    simp only [step, setPhase_phase, if_true, hcancelled]
  have hafter : (machine deployment).Path Machine.anyStep (events ++ [Event.start run true])
      started := hpath.extend trivial hstarted
  have hended : (machine deployment).Path Machine.anyStep
      (events ++ [Event.start run true] ++ [Event.childExit run 0])
      (started.setPhase run (.running (some 0))) := hafter.extend trivial hexited
  refine ⟨_, hended.extend trivial hchecked, Or.inl (by simp), ?_⟩
  rintro ⟨other, stored, marked, answered, -, hsublist⟩
  have hfuture : [Event.start run stored, .mark other marked, .check run answered].Sublist
      (events ++ [Event.start run true, .childExit run 0, .check run true]) := by
    simpa using hsublist
  -- The start is not among the earlier events, so the mark would have to come later.
  obtain ⟨earlier, later, hsplit, hearlier, hlater⟩ := List.sublist_append_iff.mp hfuture
  cases earlier with
  | nil =>
    rw [List.nil_append] at hsplit
    subst hsplit
    have hmem := hlater.subset (List.mem_cons_of_mem _ (List.mem_cons_self))
    simp at hmem
  | cons first rest =>
    rw [List.cons_append] at hsplit
    obtain ⟨rfl, -⟩ := List.cons.inj hsplit
    exact not_started_of_idle hpath hidle stored (hearlier.subset List.mem_cons_self)

/-- A run is cancelled and ends; the next run on the project exits with code 0
while the marker is still set, and is reported as cancelled. -/
theorem not_cancels_attributed_of_next_run :
    ¬ ∀ (deployment : Deployment Unit Unit ℕ ℕ) (events : List (Event Unit ℕ ℕ))
        (state : State Unit Unit ℕ ℕ),
      (machine deployment).Path Machine.anyStep events state →
        CancelsAttributed deployment events state := by
  intro hclaim
  obtain ⟨state, hrun, hidle, hmarker⟩ : ∃ state,
      (machine oneProject).runUnder (FreshStart oneProject) (machine oneProject).init
        [.start 0 true, .mark 0 true, .terminate 0, .childExit 0 (-15), .check 0 true,
          .reap 0, .unregister 0 true, .close 0 true] = some state ∧
      state.phase 1 = .idle ∧ state.cancelled.get () = some 0 := ⟨_, rfl, rfl, rfl⟩
  have hpath : (machine oneProject).Path Machine.anyStep _ state :=
    (Machine.path_of_runUnder hrun).mono fun _ _ _ => trivial
  obtain ⟨last, hlast, hreports, hattributed⟩ :=
    misattributed_of_start_under_marker hpath hidle hmarker
  exact hattributed (hclaim _ _ _ hlast 1 hreports)

end DbtCraft.Services.Command

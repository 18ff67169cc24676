/-
# No orphan child

The two streaming functions are to leave no child behind. They do when they end
normally or by one cancellation inside their `try`. The other ends fall straight
into the `finally` block, which only forgets the child: an exception of
`readline`, which an over-long line is enough for, or of the line callback; a
cancellation while the child is registered, which is before the `try`; a second
cancellation while the handler waits for the child; and the close of the ingest
generator at a `yield`. Along every run without these steps while the child runs,
no child outlives its function or the lock and slot its function ran under.
-/

import DbtCraft.Routers.Ingest
import DbtCraft.Routers.Sse

namespace DbtCraft.Routers

open DbtCraft.Math DbtCraft.Python

namespace Sse

variable {maxLineBytes : ℕ} {state next : State} {event : Event} {events : List Event}

/-- The function is past every `await` at which it could still stop the child. -/
def Phase.PastChild (phase : Phase) : Prop :=
  match phase with
  | .unregistering _ | .finished _ => True
  | _ => False

instance : (phase : Phase) → Decidable phase.PastChild
  | .unregistering _ | .finished _ => isTrue trivial
  | .spawning | .registering | .reading | .emitting | .waiting | .checking | .terminating
  | .killing => isFalse id

/-- The child has exited when the function gives it up, and when `stream_dbt`
gives up the lock and the slot. -/
structure NoOrphan (state : State) : Prop where
  returned : state.phase.PastChild → state.child ≠ .running
  released : state.scope = .released → state.child ≠ .running

/-- The child runs, or may still be started. -/
def State.Unsettled (state : State) : Prop :=
  ¬ state.phase.Ended ∧ ∀ returncode, state.child ≠ .exited returncode

/-- Nothing interrupts the function where it cannot stop the child it runs, and
nothing interrupts `stream_dbt` while it stops the function. -/
def Supervised (maxLineBytes : ℕ) (state : State) (event : Event) : Prop :=
  match event with
  | .line bytes => bytes ≤ streamLimit maxLineBytes ∨ state.child ≠ .running
  | .raise => state.child ≠ .running
  | .cancel =>
    state.phase = .registering ∨ state.phase = .terminating ∨ state.phase = .killing →
      state.child ≠ .running
  | .interruptGather => ¬ state.Unsettled
  | _ => True

instance (state : State) : Decidable state.Unsettled := by
  unfold State.Unsettled
  cases hchild : state.child with
  | absent | running => exact decidable_of_iff (¬ state.phase.Ended) (by simp)
  | exited returncode =>
    exact decidable_of_iff False (by simp)

instance (maxLineBytes : ℕ) (state : State) (event : Event) :
    Decidable (Supervised maxLineBytes state event) := by
  cases event <;> unfold Supervised <;> infer_instance

/-- The function is past the end of its child. -/
def Phase.PastWait (phase : Phase) : Prop :=
  match phase with
  | .checking | .unregistering _ | .finished _ => True
  | _ => False

/-- The invariant of supervised runs: before the child is started there is none,
past its end there is none left, and a released scope has nothing to settle. -/
structure Settled (state : State) : Prop where
  unstarted : state.phase = .spawning → state.child = .absent
  waited : state.phase.PastWait → state.child ≠ .running
  released : state.scope = .released → ¬ state.Unsettled

theorem settled_init : Settled (machine maxLineBytes).init where
  unstarted _ := rfl
  waited _ := by simp [machine]
  released hreleased := by cases hreleased

theorem Phase.PastChild.pastWait {phase : Phase} (hpast : phase.PastChild) :
    phase.PastWait := by
  cases phase <;> first | exact trivial | cases hpast

theorem Phase.Ended.pastWait {phase : Phase} (hended : phase.Ended) : phase.PastWait := by
  cases phase <;> first | exact trivial | cases hended

theorem NoOrphan.of_settled (hsettled : Settled state) : NoOrphan state where
  returned hpast := hsettled.waited hpast.pastWait
  released hreleased := by
    intro hrunning
    refine hsettled.released hreleased ⟨?_, fun returncode => by rw [hrunning]; simp⟩
    intro hended
    exact hsettled.waited hended.pastWait hrunning

/-- A step of the function that leaves the child alone keeps a settled state
settled, if it gives up no running child and does not undo the end. -/
theorem Settled.setPhase {phase : Phase} (hsettled : Settled state)
    (hspawning : phase ≠ .spawning) (hpast : phase.PastWait → state.child ≠ .running)
    (hended : ¬ state.phase.Ended ∨ phase.Ended) : Settled { state with phase := phase } where
  unstarted hphase := absurd hphase hspawning
  waited := hpast
  released hreleased := by
    rintro ⟨hnot, hchild⟩
    rcases hended with hbefore | hafter
    · exact hsettled.released hreleased ⟨hbefore, hchild⟩
    · exact hnot hafter

/-- A step of `stream_dbt` keeps a settled state settled, if it releases the
scope only once the function can start and keep no child. -/
theorem Settled.setScope {scope : Scope} (hsettled : Settled state)
    (hreleased : scope = .released → ¬ state.Unsettled) :
    Settled { state with scope := scope } where
  unstarted := hsettled.unstarted
  waited := hsettled.waited
  released := hreleased

theorem Settled.handleCancel (hsettled : Settled state) (hended : ¬ state.phase.Ended) :
    Settled state.handleCancel := by
  unfold State.handleCancel
  split
  · refine hsettled.setPhase (by simp) ?_ (Or.inl hended)
    rintro ⟨⟩
  next hchild => exact hsettled.setPhase (by simp) (fun _ => hchild) (Or.inl hended)

theorem settled_step (hsettled : Settled state) (hsupervised : Supervised maxLineBytes state event)
    (hstep : step maxLineBytes state event = some next) : Settled next := by
  cases event with
  | spawned =>
    simp only [step] at hstep
    split at hstep <;> cases hstep
    next hphase =>
      refine ⟨by simp, by rintro ⟨⟩, ?_⟩
      intro hreleased
      -- A released scope has no function left that could start a child.
      refine absurd ⟨?_, ?_⟩ (hsettled.released hreleased)
      · rw [hphase]
        rintro ⟨⟩
      · rw [hsettled.unstarted hphase]
        simp
  | childExit returncode =>
    simp only [step] at hstep
    split at hstep <;> cases hstep
    next hrunning =>
      refine ⟨?_, by simp, fun _ h => h.2 returncode rfl⟩
      intro hphase
      rw [hsettled.unstarted hphase] at hrunning
      cases hrunning
  | spawnFailed =>
    simp only [step] at hstep
    split at hstep <;> cases hstep
    next hphase =>
      refine hsettled.setPhase (by simp) (fun _ => ?_) (Or.inr trivial)
      rw [hsettled.unstarted hphase]
      simp
  | registered | endOfOutput | emitted | graceOver =>
    simp only [step] at hstep
    split at hstep <;> cases hstep
    next hphase =>
      refine hsettled.setPhase (by simp) (by rintro ⟨⟩) (Or.inl ?_)
      rw [hphase]
      rintro ⟨⟩
  | line bytes =>
    simp only [step] at hstep
    split at hstep
    next hphase =>
      have hended : ¬ state.phase.Ended := by
        rw [hphase]
        rintro ⟨⟩
      split at hstep <;> cases hstep
      · exact hsettled.setPhase (by simp) (by rintro ⟨⟩) (Or.inl hended)
      next hlong =>
        refine hsettled.setPhase (by simp) (fun _ => ?_) (Or.inl hended)
        refine hsupervised.resolve_left fun hshort => ?_
        rw [readline_eq_returns.mpr hshort] at hlong
        cases hlong
    · cases hstep
  | waited =>
    simp only [step] at hstep
    split at hstep <;> cases hstep
    next hwaited =>
      refine hsettled.setPhase (by simp) (fun _ => hwaited.2) (Or.inl ?_)
      rw [hwaited.1]
      rintro ⟨⟩
  | checked marker =>
    simp only [step] at hstep
    split at hstep <;> cases hstep
    next hphase =>
      refine hsettled.setPhase (by simp) (fun _ => hsettled.waited ?_) (Or.inl ?_)
      · rw [hphase]
        exact trivial
      · rw [hphase]
        rintro ⟨⟩
  | raise =>
    simp only [step] at hstep
    split at hstep <;> cases hstep
    next hphase =>
      refine hsettled.setPhase (by simp) (fun _ => hsupervised) (Or.inl ?_)
      rcases hphase with hphase | hphase <;> rw [hphase] <;> rintro ⟨⟩
  | cancel =>
    simp only [step] at hstep
    cases hphase : state.phase with
    | spawning =>
      rw [hphase] at hstep
      cases hstep
      refine hsettled.setPhase (by simp) (fun _ => ?_) (Or.inr trivial)
      rw [hsettled.unstarted hphase]
      simp
    | registering =>
      rw [hphase] at hstep
      cases hstep
      exact hsettled.setPhase (by simp) (fun _ => hsupervised (Or.inl hphase))
        (Or.inr trivial)
    | reading | emitting | waiting | checking =>
      rw [hphase] at hstep
      cases hstep
      apply hsettled.handleCancel
      rw [hphase]
      rintro ⟨⟩
    | terminating | killing =>
      rw [hphase] at hstep
      cases hstep
      refine hsettled.setPhase (by simp) (fun _ => ?_) (Or.inl ?_)
      · exact hsupervised (by simp [hphase])
      · rw [hphase]
        rintro ⟨⟩
    | unregistering ending =>
      rw [hphase] at hstep
      cases hstep
      refine hsettled.setPhase (by simp) (fun _ => ?_) (Or.inr trivial)
      apply hsettled.waited
      rw [hphase]
      exact trivial
    | finished ending =>
      rw [hphase] at hstep
      cases hstep
  | reaped =>
    simp only [step] at hstep
    split at hstep <;> cases hstep
    next hreaped =>
      refine hsettled.setPhase (by simp) (fun _ => hreaped.2) (Or.inl ?_)
      rcases hreaped.1 with hphase | hphase <;> rw [hphase] <;> rintro ⟨⟩
  | unregistered =>
    simp only [step] at hstep
    split at hstep <;> cases hstep
    next ending hphase =>
      refine hsettled.setPhase (by simp) (fun _ => ?_) (Or.inr trivial)
      apply hsettled.waited
      rw [hphase]
      exact trivial
  | leaveScope | runGathered =>
    simp only [step] at hstep
    split at hstep <;> cases hstep
    next hended => exact hsettled.setScope fun _ h => h.1 hended.2
  | leaveLoop =>
    simp only [step] at hstep
    split at hstep <;> cases hstep
    exact hsettled.setScope (by simp)
  | doneGathered =>
    simp only [step] at hstep
    split at hstep <;> cases hstep
    apply hsettled.setScope
    intro hreleased hunsettled
    rw [if_neg hunsettled.1] at hreleased
    cases hreleased
  | interruptGather =>
    simp only [step] at hstep
    split at hstep <;> cases hstep
    exact hsettled.setScope fun _ => hsupervised

theorem noOrphan_of_supervised
    (hpath : (machine maxLineBytes).Path (Supervised maxLineBytes) events state) :
    NoOrphan state := by
  apply NoOrphan.of_settled
  exact hpath.invariant settled_init fun h hsupervised hstep =>
    settled_step h hsupervised hstep

/-- The condition is exact: while the child runs, a step outside it gives the
child up. -/
theorem orphan_of_unsupervised (hrunning : state.child = .running)
    (hunsupervised : ¬ Supervised maxLineBytes state event)
    (hstep : step maxLineBytes state event = some next) : ¬ NoOrphan next := by
  intro hnone
  cases event with
  | line bytes =>
    have hlong : readline (streamLimit maxLineBytes) bytes = .valueError := by
      have hover : ¬ bytes ≤ streamLimit maxLineBytes := fun h => hunsupervised (Or.inl h)
      simp [readline, hover]
    simp only [step, hlong] at hstep
    split at hstep <;> cases hstep
    exact hnone.returned trivial hrunning
  | raise =>
    simp only [step] at hstep
    split at hstep <;> cases hstep
    exact hnone.returned trivial hrunning
  | cancel =>
    have hphase : state.phase = .registering ∨ state.phase = .terminating ∨
        state.phase = .killing := by
      by_contra hother
      exact hunsupervised fun h => absurd h hother
    rcases hphase with hphase | hphase | hphase <;> simp only [step, hphase] at hstep <;>
      cases hstep <;> exact hnone.returned trivial hrunning
  | interruptGather =>
    simp only [step] at hstep
    split at hstep <;> cases hstep
    exact hnone.released rfl hrunning
  | _ => exact hunsupervised trivial

end Sse

namespace Ingest

variable {maxLineBytes : ℕ} {state next : State} {event : Event} {events : List Event}

/-- The generator has ended. -/
def Phase.Ended (phase : Phase) : Prop :=
  match phase with
  | .finished _ => True
  | _ => False

/-- The child has exited when the generator ends, after which its caller gives up
the lock and the slot. -/
def NoOrphan (state : State) : Prop := state.phase.Ended → state.child ≠ .running

/-- Nothing ends the generator where it cannot stop the child it runs. -/
def Supervised (maxLineBytes : ℕ) (state : State) (event : Event) : Prop :=
  match event with
  | .line bytes _ => bytes ≤ streamLimit maxLineBytes ∨ state.child ≠ .running
  | .raise | .close => state.child ≠ .running
  | .cancel =>
    state.phase = .timeoutReaping ∨ state.phase = .terminating ∨ state.phase = .killing →
      state.child ≠ .running
  | _ => True

instance (maxLineBytes : ℕ) (state : State) (event : Event) :
    Decidable (Supervised maxLineBytes state event) := by
  cases event <;> unfold Supervised <;> infer_instance

/-- The generator is past the end of its child. -/
def Phase.PastWait (phase : Phase) : Prop :=
  match phase with
  | .yieldingResult | .yieldingTimeout | .finished _ => True
  | _ => False

/-- The invariant of supervised runs: before the child is started there is none,
and past its end there is none left. -/
structure Settled (state : State) : Prop where
  unstarted : state.phase = .spawning → state.child = .absent
  waited : state.phase.PastWait → state.child ≠ .running

theorem settled_init : Settled (machine maxLineBytes).init where
  unstarted _ := rfl
  waited _ := by simp [machine]

theorem Phase.Ended.pastWait {phase : Phase} (hended : phase.Ended) : phase.PastWait := by
  cases phase <;> first | exact trivial | cases hended

theorem settled_setPhase {phase : Phase}
    (hspawning : phase ≠ .spawning) (hpast : phase.PastWait → state.child ≠ .running) :
    Settled { state with phase := phase } where
  unstarted hphase := absurd hphase hspawning
  waited := hpast

theorem settled_handleCancel : Settled state.handleCancel := by
  unfold State.handleCancel
  split
  · exact settled_setPhase (by simp) (by rintro ⟨⟩)
  next hchild => exact settled_setPhase (by simp) fun _ => hchild

theorem settled_step (hsettled : Settled state) (hsupervised : Supervised maxLineBytes state event)
    (hstep : step maxLineBytes state event = some next) : Settled next := by
  cases event with
  | spawned =>
    simp only [step] at hstep
    split at hstep <;> cases hstep
    exact ⟨by simp, by rintro ⟨⟩⟩
  | spawnFailed =>
    simp only [step] at hstep
    split at hstep <;> cases hstep
    next hphase =>
      refine settled_setPhase (by simp) fun _ => ?_
      rw [hsettled.unstarted hphase]
      simp
  | childExit returncode =>
    simp only [step] at hstep
    split at hstep <;> cases hstep
    next hrunning =>
      refine ⟨?_, by simp⟩
      intro hphase
      rw [hsettled.unstarted hphase] at hrunning
      cases hrunning
  | drained | endOfOutput | graceOver =>
    simp only [step] at hstep
    split at hstep <;> cases hstep
    exact settled_setPhase (by simp) (by rintro ⟨⟩)
  | line bytes isResult =>
    simp only [step] at hstep
    split at hstep
    · split at hstep <;> cases hstep
      · cases isResult with
        | true => exact hsettled
        | false => exact settled_setPhase (by simp) (by rintro ⟨⟩)
      next hlong =>
        refine settled_setPhase (by simp) fun _ => ?_
        refine hsupervised.resolve_left fun hshort => ?_
        rw [readline_eq_returns.mpr hshort] at hlong
        cases hlong
    · cases hstep
  | waited =>
    simp only [step] at hstep
    split at hstep <;> cases hstep
    next hwaited => exact settled_setPhase (by simp) fun _ => hwaited.2
  | resume =>
    simp only [step] at hstep
    split at hstep <;> cases hstep
    · exact settled_setPhase (by simp) (by rintro ⟨⟩)
    next hphase =>
      refine settled_setPhase (by simp) fun _ => hsettled.waited ?_
      rw [hphase]
      exact trivial
    next hphase =>
      refine settled_setPhase (by simp) fun _ => hsettled.waited ?_
      rw [hphase]
      exact trivial
  | raise =>
    simp only [step] at hstep
    split at hstep
    · cases hstep
      exact settled_setPhase (by simp) fun _ => hsupervised
    · cases hstep
      exact settled_setPhase (by simp) fun _ => hsupervised
    · cases hstep
      exact settled_setPhase (by simp) fun _ => hsupervised
    · split at hstep <;> cases hstep
      exact settled_setPhase (by simp) fun _ => hsupervised
    · cases hstep
  | deadline =>
    simp only [step] at hstep
    split at hstep <;> cases hstep <;> exact settled_setPhase (by simp) (by rintro ⟨⟩)
  | cancel =>
    simp only [step] at hstep
    cases hphase : state.phase with
    | spawning =>
      rw [hphase] at hstep
      cases hstep
      refine settled_setPhase (by simp) fun _ => ?_
      rw [hsettled.unstarted hphase]
      simp
    | draining | reading | waiting =>
      rw [hphase] at hstep
      cases hstep
      exact settled_handleCancel
    | timeoutReaping | terminating | killing =>
      rw [hphase] at hstep
      cases hstep
      exact settled_setPhase (by simp) fun _ => hsupervised (by simp [hphase])
    | yieldingLog | yieldingResult | yieldingTimeout | finished ending =>
      rw [hphase] at hstep
      cases hstep
  | close =>
    simp only [step] at hstep
    split at hstep <;> cases hstep <;> exact settled_setPhase (by simp) fun _ => hsupervised
  | reaped =>
    simp only [step] at hstep
    split at hstep
    next hchild =>
      split at hstep <;> cases hstep <;> exact settled_setPhase (by simp) fun _ => hchild
    · cases hstep

theorem noOrphan_of_supervised
    (hpath : (machine maxLineBytes).Path (Supervised maxLineBytes) events state) :
    NoOrphan state := by
  have hsettled : Settled state := hpath.invariant settled_init fun h hsupervised hstep =>
    settled_step h hsupervised hstep
  exact fun hended => hsettled.waited hended.pastWait

/-- The condition is exact: while the child runs, a step outside it gives the
child up. -/
theorem orphan_of_unsupervised (hrunning : state.child = .running)
    (hunsupervised : ¬ Supervised maxLineBytes state event)
    (hstep : step maxLineBytes state event = some next) : ¬ NoOrphan next := by
  intro hnone
  cases event with
  | line bytes isResult =>
    have hlong : readline (streamLimit maxLineBytes) bytes = .valueError := by
      have hover : ¬ bytes ≤ streamLimit maxLineBytes := fun h => hunsupervised (Or.inl h)
      simp [readline, hover]
    simp only [step, hlong] at hstep
    split at hstep <;> cases hstep
    exact hnone trivial hrunning
  | raise =>
    simp only [step] at hstep
    split at hstep
    · cases hstep
      exact hnone trivial hrunning
    · cases hstep
      exact hnone trivial hrunning
    · cases hstep
      exact hnone trivial hrunning
    · split at hstep <;> cases hstep
      exact hnone trivial hrunning
    · cases hstep
  | close =>
    simp only [step] at hstep
    split at hstep <;> cases hstep <;> exact hnone trivial hrunning
  | cancel =>
    have hphase : state.phase = .timeoutReaping ∨ state.phase = .terminating ∨
        state.phase = .killing := by
      by_contra hother
      exact hunsupervised fun h => absurd h hother
    rcases hphase with hphase | hphase | hphase <;> simp only [step, hphase] at hstep <;>
      cases hstep <;> exact hnone trivial hrunning
  | _ => exact hunsupervised trivial

/-- A run of the generator leaves an orphan in no state that it comes to exactly when the run is
supervised. -/
theorem path_noOrphan_iff_supervised (maxLineBytes : ℕ) (events : List Event) (state : State) :
    (machine maxLineBytes).Path ((machine maxLineBytes).LeadsTo NoOrphan) events state ↔
      (machine maxLineBytes).Path (Supervised maxLineBytes) events state := by
  refine (Machine.path_congr settled_init settled_step ?_).symm
  intro source event target hsettled hstep
  constructor
  · intro hsupervised other hother hended
    exact (settled_step hsettled hsupervised hother).waited hended.pastWait
  · intro hleads
    by_contra hunsupervised
    by_cases hrunning : source.child = .running
    · exact orphan_of_unsupervised hrunning hunsupervised hstep (hleads target hstep)
    · cases event <;> simp [Supervised, hrunning] at hunsupervised

end Ingest

/-! ## Both functions -/

variable {sseLimit ingestLimit : ℕ} {sseEvents : List Sse.Event} {sse : Sse.State}
  {ingestEvents : List Ingest.Event} {ingest : Ingest.State}

/-- **No orphan child.** Along every supervised run of either function, for every
output of its child, the child has exited when the function has ended, and when
the lock and the slot it ran under are released. -/
theorem no_orphan_of_supervised_runs
    (hsse : (Sse.machine sseLimit).Path (Sse.Supervised sseLimit) sseEvents sse)
    (hingest : (Ingest.machine ingestLimit).Path (Ingest.Supervised ingestLimit)
      ingestEvents ingest) :
    Sse.NoOrphan sse ∧ Ingest.NoOrphan ingest :=
  ⟨Sse.noOrphan_of_supervised hsse, Ingest.noOrphan_of_supervised hingest⟩

/-- A cancelled dbt child that needs a kill, and an ingest that is stopped at its
deadline. -/
theorem no_orphan_of_stopped_children :
    ∃ sse ingest, (Sse.NoOrphan sse ∧ Ingest.NoOrphan ingest) ∧
      sse.phase = .finished .cancelled ∧ ingest.phase = .finished .returned := by
  obtain ⟨sse, hsse, hsseEnd⟩ : ∃ sse,
      (Sse.machine Sse.maxLineBytes).runUnder (Sse.Supervised Sse.maxLineBytes)
        (Sse.machine Sse.maxLineBytes).init
        [.spawned, .registered, .line 70, .emitted, .leaveLoop, .doneGathered, .cancel,
          .graceOver, .childExit (-9), .reaped, .unregistered, .runGathered] = some sse ∧
      sse.phase = .finished .cancelled := ⟨_, rfl, rfl⟩
  obtain ⟨ingest, hingest, hingestEnd⟩ : ∃ ingest,
      (Ingest.machine Ingest.maxLineBytes).runUnder (Ingest.Supervised Ingest.maxLineBytes)
        (Ingest.machine Ingest.maxLineBytes).init
        [.spawned, .drained, .line 70 false, .resume, .deadline, .childExit (-9), .reaped,
          .resume] = some ingest ∧
      ingest.phase = .finished .returned := ⟨_, rfl, rfl⟩
  exact ⟨sse, ingest, no_orphan_of_supervised_runs (Machine.path_of_runUnder hsse)
    (Machine.path_of_runUnder hingest), hsseEnd, hingestEnd⟩

/-- One line longer than the limit of the reader, and the dbt child runs on
without the lock and the slot. -/
theorem not_no_orphan_of_long_line :
    ¬ ∀ (sseLimit ingestLimit : ℕ) (sseEvents : List Sse.Event) (sse : Sse.State)
        (ingestEvents : List Ingest.Event) (ingest : Ingest.State),
      (Sse.machine sseLimit).Path Machine.anyStep sseEvents sse →
        (Ingest.machine ingestLimit).Path Machine.anyStep ingestEvents ingest →
          Sse.NoOrphan sse ∧ Ingest.NoOrphan ingest := by
  intro hclaim
  obtain ⟨sse, hsse, hreleased, hrunning⟩ : ∃ sse,
      (Sse.machine Sse.maxLineBytes).runFrom (Sse.machine Sse.maxLineBytes).init
        [.spawned, .registered, .line 66561, .unregistered, .leaveScope] = some sse ∧
      sse.scope = .released ∧ sse.child = .running := ⟨_, rfl, rfl, rfl⟩
  have hnone := (hclaim Sse.maxLineBytes Ingest.maxLineBytes _ sse [] _
    (Machine.path_of_runFrom hsse) .start).1
  exact hnone.released hreleased hrunning

end DbtCraft.Routers

/-
# The ingest history tells the truth

The row of an ended run is to be `success` if the child exited with zero, `cancelled` if a
user cancel or a disconnect stopped the run before that, and `error` otherwise. The generator
does not write it when it is closed at a `yield`, or cancelled outside of its `try`; it takes
a user cancel for a failure, and a disconnect after the end of the child for a cancel. Along
every run without these steps the row of an ended run is right, and it never changes again.
-/

import DbtCraft.Routers.IngestRun

namespace DbtCraft.Routers.IngestRun

open DbtCraft.Math DbtCraft.Python
open DbtCraft.Routers.Ingest (streamLimit)
open DbtCraft.Services.RunOutcome (RunStatus)
open DbtCraft.Services.RunLifecycle (Terminal)

variable {maxLineBytes : ℕ} {needsDuckdbLock : Bool} {state next : State} {event : Event}
  {events : List Event} {load : Ingest.State} {status : RunStatus} {phase : Phase}
  {ending : Ingest.Ending} {point : Ingest.Phase} {returncode : ℤ}

/-- How the run has ended. -/
def State.outcome (state : State) : RunStatus :=
  if state.load.child = .exited 0 then .success
  else if state.stopped then .cancelled
  else .error

/-- What the history promises in a state: the row of an ended run tells how it has ended, and
no next step changes a terminal row. -/
structure Truthful (maxLineBytes : ℕ) (state : State) : Prop where
  ended : state.phase = .ended → state.row ≠ none → state.row = some state.outcome
  kept : ∀ event next, step maxLineBytes state event = some next →
    ∀ status, Terminal status → state.row = some status → next.row = some status

/-- The generator still reads what its child writes. -/
def State.Listening (state : State) : Prop :=
  state.phase = .streaming ∧ (state.load.phase = .draining ∨ state.load.phase = .reading ∨
    state.load.phase = .yieldingLog ∨ state.load.phase = .waiting)

instance (state : State) : Decidable state.Listening := inferInstanceAs (Decidable (_ ∧ _))

/-- What `_stream_process` makes of its child is how the run has ended. -/
def OrderlyLoad (maxLineBytes : ℕ) (state : State) : Ingest.Event → Prop
  | .childExit returncode => returncode = 0 → state.Listening
  | .waited => state.outcome ≠ .cancelled
  | .cancel => state.undecided = true ∨ state.outcome = .cancelled
  | .close => False
  | .spawnFailed | .deadline | .raise => state.outcome = .error
  | .line bytes _ => bytes ≤ streamLimit maxLineBytes ∨ state.outcome = .error
  | .spawned | .drained | .endOfOutput | .resume | .graceOver | .reaped => True

/-- The generator is not closed, not cancelled where it writes nothing or after something else
has ended the run, and meets no exception after it was stopped. -/
def Orderly (maxLineBytes : ℕ) (state : State) : Event → Prop
  | .load event => OrderlyLoad maxLineBytes state event
  | .raise => state.phase ≠ .finishing ∧ state.outcome ≠ .cancelled
  | .cancel =>
    match state.phase with
    | .inserted | .finishing => False
    | .releasing _ => state.outcome = .cancelled
    | _ => True
  | .close => False
  | .inserted | .unavailable | .started | .resume | .granted | .locked | .userCancel | .released
  | .committed | .closed => True

instance (maxLineBytes : ℕ) (state : State) (event : Ingest.Event) :
    Decidable (OrderlyLoad maxLineBytes state event) := by
  rcases event with _ | _ | _ | _ | _ | _ | _ | _ | _ | _ | _ | _ | _ | _ <;> unfold OrderlyLoad <;>
    infer_instance

instance (maxLineBytes : ℕ) (state : State) (event : Event) :
    Decidable (Orderly maxLineBytes state event) := by
  cases event with
  | cancel =>
    rcases state with ⟨needsDuckdbLock, phase, load, row, status, stopped⟩
    cases phase <;> unfold Orderly <;> infer_instance
  | _ => unfold Orderly; infer_instance

/-! ## The invariant -/

/-- What the generator knows of the run while `_stream_process` is in a phase. -/
def State.Follows (state : State) : Ingest.Phase → Prop
  | .spawning => state.load.child = .absent ∧ state.stopped = false ∧ state.status = .error
  | .draining | .reading | .yieldingLog | .waiting => state.status = .error
  | .yieldingResult =>
    state.load.child ≠ .running ∧ state.status = state.outcome ∧ state.outcome ≠ .cancelled
  | .timeoutReaping => state.status = .error ∧ state.outcome = .error
  | .yieldingTimeout =>
    state.load.child ≠ .running ∧ state.status = .error ∧ state.outcome = .error
  | .terminating | .killing => state.outcome = .cancelled
  | .finished _ => False

/-- What the generator knows of the run in each phase. -/
def State.Knows (state : State) : Prop :=
  match state.phase with
  | .inserting | .inserted | .yieldingStarted | .acquiring | .locking =>
    state.load = ⟨.absent, .spawning⟩ ∧ state.stopped = false ∧ state.status = .error
  | .streaming => state.Follows state.load.phase
  | .releasing .returned | .releasing .raised | .yieldingError =>
    state.status = state.outcome ∧ state.outcome ≠ .cancelled
  | .releasing .cancelled => state.outcome = .cancelled
  | .releasing .closed => False
  | .finishing => state.status = state.outcome
  | .finished | .ended => True

/-- What the row is in each phase, if there is one. -/
def State.Written (state : State) : Prop :=
  match state.phase with
  | .inserting => state.row = none
  | .finished | .ended => state.row = none ∨ state.row = some state.outcome
  | .finishing => state.row = some .running
  | _ => state.row = none ∨ state.row = some .running

structure Tracked (state : State) : Prop where
  knows : state.Knows
  written : state.Written

theorem tracked_init : Tracked (machine maxLineBytes needsDuckdbLock).init where
  knows := ⟨rfl, rfl, rfl⟩
  written := rfl

/-! ### How a run ends -/

theorem outcome_eq_cancelled :
    state.outcome = .cancelled ↔ state.load.child ≠ .exited 0 ∧ state.stopped = true := by
  unfold State.outcome
  by_cases hchild : state.load.child = .exited 0
  · simp [hchild]
  · cases hstopped : state.stopped <;> simp [hchild]

theorem outcome_eq_error :
    state.outcome = .error ↔ state.load.child ≠ .exited 0 ∧ state.stopped = false := by
  unfold State.outcome
  by_cases hchild : state.load.child = .exited 0
  · simp [hchild]
  · cases hstopped : state.stopped <;> simp [hchild]

/-- Only the child and what stopped the run count. -/
theorem outcome_congr (hchild : next.load.child = .exited 0 ↔ state.load.child = .exited 0)
    (hstopped : next.stopped = state.stopped) : next.outcome = state.outcome := by
  unfold State.outcome
  rw [hstopped]
  by_cases hzero : state.load.child = .exited 0
  · rw [if_pos hzero, if_pos (hchild.mpr hzero)]
  · rw [if_neg hzero, if_neg fun h => hzero (hchild.mp h)]

theorem stop_eq_of_undecided (hundecided : state.undecided = true) :
    state.stop = { state with stopped := true } := by
  rw [State.stop, hundecided, Bool.or_true]

theorem stop_eq_of_decided (hdecided : state.undecided = false) : state.stop = state := by
  rw [State.stop, hdecided, Bool.or_false]

/-- What a child leaves undecided, it has not done. -/
theorem child_of_undecided (hstreaming : state.phase = .streaming)
    (hundecided : state.undecided = true) :
    state.load.child ≠ .exited 0 ∧ state.load.phase ≠ .timeoutReaping := by
  rw [State.undecided, hstreaming] at hundecided
  cases hchild : state.load.child with
  | absent | running =>
    simp only [hchild, decide_eq_true_eq] at hundecided
    exact ⟨by simp, hundecided⟩
  | exited returncode => simp [hchild] at hundecided

theorem outcome_stop_of_undecided (hstreaming : state.phase = .streaming)
    (hundecided : state.undecided = true) : state.stop.outcome = .cancelled := by
  rw [stop_eq_of_undecided hundecided]
  exact outcome_eq_cancelled.mpr ⟨(child_of_undecided hstreaming hundecided).1, rfl⟩

theorem outcome_stop_of_cancelled (hcancelled : state.outcome = .cancelled) :
    state.stop.outcome = .cancelled := by
  obtain ⟨hchild, hstopped⟩ := outcome_eq_cancelled.mp hcancelled
  refine outcome_eq_cancelled.mpr ⟨hchild, ?_⟩
  simp [State.stop, hstopped]

/-! ### The steps of the child and of its generator -/

theorem follow_streaming (hstreaming : state.phase = .streaming)
    (hload : ∀ ending, load.phase ≠ .finished ending) :
    (state.follow load).phase = .streaming := by
  unfold State.follow
  simp only [hstreaming]
  split
  next ending _ hfinished => exact absurd hfinished (hload ending)
  · rfl

theorem follow_status (hload : load.phase ≠ .yieldingResult) :
    (state.follow load).status = state.status := by
  simp [State.follow, hload]

theorem follow_finished (hstreaming : state.phase = .streaming)
    (hload : load.phase = .finished ending) :
    state.follow load = { state with load := load, phase := .releasing ending } := by
  simp [State.follow, hstreaming, hload]

/-- The row while the run goes on. -/
def State.Open (state : State) : Prop := state.row = none ∨ state.row = some .running

theorem Tracked.isOpen (htracked : Tracked state) (hstreaming : state.phase = .streaming) :
    state.Open := by
  have hwritten := htracked.written
  simp only [State.Written, hstreaming] at hwritten
  exact hwritten

theorem Tracked.follows (htracked : Tracked state) (hstreaming : state.phase = .streaming)
    (hload : state.load.phase = point) : state.Follows point := by
  have hknows := htracked.knows
  simp only [State.Knows, hstreaming, hload] at hknows
  exact hknows

/-- The generator goes on. -/
theorem tracked_follow (hstreaming : state.phase = .streaming) (hopen : state.Open)
    (hload : load.phase = point) (hgoes : ∀ ending, point ≠ .finished ending)
    (hfollows : (state.follow load).Follows point) : Tracked (state.follow load) := by
  subst hload
  have hphase := follow_streaming hstreaming hgoes
  refine ⟨?_, ?_⟩
  · simp only [State.Knows, hphase]
    exact hfollows
  · simp only [State.Written, hphase]
    exact hopen

/-- The generator has ended. -/
theorem tracked_follow_finished (hstreaming : state.phase = .streaming) (hopen : state.Open)
    (hload : load.phase = .finished ending)
    (hknows : State.Knows { state with load := load, phase := .releasing ending }) :
    Tracked (state.follow load) := by
  rw [follow_finished hstreaming hload]
  refine ⟨hknows, ?_⟩
  simp only [State.Written]
  exact hopen

/-- A child that was not expected to succeed any more has not. -/
theorem outcome_childExit (hrunning : state.load.child = .running) (hfailed : returncode ≠ 0)
    (hchild : next.load.child = .exited returncode) (hstopped : next.stopped = state.stopped) :
    next.outcome = state.outcome := by
  refine outcome_congr ?_ hstopped
  simp [hchild, hrunning, hfailed]

/-- The child ends while its generator goes on. -/
theorem tracked_childExit (htracked : Tracked state) (hstreaming : state.phase = .streaming)
    (horderly : returncode = 0 → state.Listening) (hrunning : state.load.child = .running) :
    Tracked (state.follow { state.load with child := .exited returncode }) := by
  have hsame (hdeaf : ¬ state.Listening) :
      (state.follow { state.load with child := .exited returncode }).outcome = state.outcome :=
    outcome_childExit hrunning (fun hzero => hdeaf (horderly hzero)) rfl rfl
  have hopen := htracked.isOpen hstreaming
  cases hphase : state.load.phase with
  | spawning =>
    have hfollows := htracked.follows hstreaming hphase
    rw [hfollows.1] at hrunning
    cases hrunning
  | draining | reading | yieldingLog | waiting =>
    refine tracked_follow hstreaming hopen hphase (by simp) ?_
    exact (follow_status (by simp [hphase])).trans (htracked.follows hstreaming hphase)
  | yieldingResult | yieldingTimeout =>
    exact absurd hrunning (htracked.follows hstreaming hphase).1
  | timeoutReaping =>
    have hfollows := htracked.follows hstreaming hphase
    have hdeaf : ¬ state.Listening := by simp [State.Listening, hphase]
    refine tracked_follow hstreaming hopen hphase (by simp) ⟨?_, ?_⟩
    · exact (follow_status (by simp [hphase])).trans hfollows.1
    · exact (hsame hdeaf).trans hfollows.2
  | terminating | killing =>
    have hdeaf : ¬ state.Listening := by simp [State.Listening, hphase]
    refine tracked_follow hstreaming hopen hphase (by simp) ?_
    exact (hsame hdeaf).trans (htracked.follows hstreaming hphase)
  | finished ending => exact (htracked.follows hstreaming hphase).elim

/-- Past the iteration only the collected status, the row and the outcome count. -/
theorem Tracked.congr (htracked : Tracked state) (hstarted : state.load ≠ ⟨.absent, .spawning⟩)
    (hstreaming : state.phase ≠ .streaming) (hphase : next.phase = state.phase)
    (hrow : next.row = state.row) (hstatus : next.status = state.status)
    (houtcome : next.outcome = state.outcome) : Tracked next := by
  have hknows := htracked.knows
  have hwritten := htracked.written
  unfold State.Knows at hknows
  unfold State.Written at hwritten
  refine ⟨?_, ?_⟩
  · unfold State.Knows
    rw [hphase, hstatus, houtcome]
    cases hat : state.phase with
    | inserting | inserted | yieldingStarted | acquiring | locking =>
      rw [hat] at hknows
      exact absurd hknows.1 hstarted
    | streaming => exact absurd hat hstreaming
    | releasing ending =>
      rw [hat] at hknows
      cases ending <;> exact hknows
    | yieldingError | finishing | finished | ended =>
      rw [hat] at hknows
      exact hknows
  · unfold State.Written
    rw [hphase, hrow, houtcome]
    exact hwritten

/-- A child that was given up ends. -/
theorem tracked_abandoned (htracked : Tracked state) (hstreaming : state.phase ≠ .streaming)
    (horderly : returncode = 0 → state.Listening) (hrunning : state.load.child = .running) :
    Tracked (state.follow { state.load with child := .exited returncode }) := by
  have hfailed : returncode ≠ 0 := fun hzero => hstreaming (horderly hzero).1
  have hfollow : state.follow { state.load with child := .exited returncode } =
      { state with load := { state.load with child := .exited returncode } } := by
    unfold State.follow
    rw [if_neg fun h => hfailed (Child.exited.inj h.2)]
    cases hphase : state.phase with
    | streaming => exact absurd hphase hstreaming
    | _ => rfl
  have hstarted : state.load ≠ ⟨.absent, .spawning⟩ := by
    intro hload
    rw [hload] at hrunning
    cases hrunning
  rw [hfollow]
  exact htracked.congr hstarted hstreaming rfl rfl rfl
    (outcome_childExit hrunning hfailed rfl rfl)

/-- Nothing of the run changes but where its generator is. -/
theorem outcome_load (hchild : load.child = state.load.child) :
    (state.follow load).outcome = state.outcome :=
  outcome_congr (by rw [State.follow, hchild]) rfl

/-- The generator goes on, and its child is the same. -/
theorem Tracked.proceed (htracked : Tracked state) (hstreaming : state.phase = .streaming)
    (hload : load.phase = point) (hgoes : ∀ ending, point ≠ .finished ending)
    (hfollows : (state.follow load).Follows point) : Tracked (state.follow load) :=
  tracked_follow hstreaming (htracked.isOpen hstreaming) hload hgoes hfollows

theorem Tracked.read (htracked : Tracked state) (hstreaming : state.phase = .streaming)
    (hstatus : state.status = .error)
    (hload : load.phase = .draining ∨ load.phase = .reading ∨ load.phase = .yieldingLog ∨
      load.phase = .waiting) : Tracked (state.follow load) := by
  rcases hload with hload | hload | hload | hload <;>
    exact htracked.proceed hstreaming hload (by simp)
      ((follow_status (by simp [hload])).trans hstatus)

theorem Tracked.fail (htracked : Tracked state) (hstreaming : state.phase = .streaming)
    (hstatus : state.status = .error) (houtcome : state.outcome = .error) :
    Tracked (state.follow { state.load with phase := .finished .raised }) := by
  refine tracked_follow_finished hstreaming (htracked.isOpen hstreaming) rfl ⟨?_, ?_⟩
  · exact hstatus.trans houtcome.symm
  · show state.outcome ≠ .cancelled
    rw [houtcome]
    simp

theorem Tracked.timeout (htracked : Tracked state) (hstreaming : state.phase = .streaming)
    (hstatus : state.status = .error) (houtcome : state.outcome = .error) :
    Tracked (state.follow { state.load with phase := .timeoutReaping }) := by
  refine htracked.proceed hstreaming rfl (by simp) ⟨?_, ?_⟩
  · exact (follow_status (by simp)).trans hstatus
  · exact (outcome_load rfl).trans houtcome

theorem Tracked.interrupt (htracked : Tracked state) (hstreaming : state.phase = .streaming)
    (hcancelled : state.stop.outcome = .cancelled)
    (hload : point = .terminating ∨ point = .finished .cancelled) :
    Tracked (state.stop.follow { state.load with phase := point }) := by
  have hopen : state.stop.Open := htracked.isOpen hstreaming
  rcases hload with rfl | rfl
  · have houtcome : (state.stop.follow { state.load with phase := .terminating }).outcome =
        state.stop.outcome := outcome_load rfl
    exact tracked_follow hstreaming hopen rfl (by simp) (houtcome.trans hcancelled)
  · exact tracked_follow_finished hstreaming hopen rfl hcancelled

theorem outcome_stop (hstreaming : state.phase = .streaming)
    (horderly : state.undecided = true ∨ state.outcome = .cancelled) :
    state.stop.outcome = .cancelled := by
  rcases horderly with hundecided | hcancelled
  · exact outcome_stop_of_undecided hstreaming hundecided
  · exact outcome_stop_of_cancelled hcancelled

theorem tracked_load {event : Ingest.Event} (htracked : Tracked state)
    (hstreaming : state.phase = .streaming) (horderly : OrderlyLoad maxLineBytes state event)
    (hload : Ingest.step maxLineBytes state.load event = some load) :
    Tracked ((if disconnects event then state.stop else state).follow load) := by
  have hopen := htracked.isOpen hstreaming
  cases event with
  | spawned =>
    simp only [Ingest.step] at hload
    split at hload <;> cases hload
    next hphase =>
      have hfollows := htracked.follows hstreaming hphase
      exact htracked.read hstreaming hfollows.2.2 (.inl rfl)
  | spawnFailed =>
    simp only [Ingest.step] at hload
    split at hload <;> cases hload
    next hphase =>
      have hfollows := htracked.follows hstreaming hphase
      exact htracked.fail hstreaming hfollows.2.2 horderly
  | childExit returncode =>
    simp only [Ingest.step] at hload
    split at hload <;> cases hload
    next hrunning => exact tracked_childExit htracked hstreaming horderly hrunning
  | drained =>
    simp only [Ingest.step] at hload
    split at hload <;> cases hload
    next hphase =>
      exact htracked.read hstreaming (htracked.follows hstreaming hphase) (.inr (.inl rfl))
  | line bytes isResult =>
    simp only [Ingest.step] at hload
    split at hload
    next hphase =>
      have hstatus : state.status = .error := htracked.follows hstreaming hphase
      split at hload <;> cases hload
      · cases isResult with
        | true => exact htracked.read hstreaming hstatus (.inr (.inl hphase))
        | false => exact htracked.read hstreaming hstatus (.inr (.inr (.inl rfl)))
      next hlong =>
        refine htracked.fail hstreaming hstatus (horderly.resolve_left fun hshort => ?_)
        rw [readline_eq_returns.mpr hshort] at hlong
        cases hlong
    · cases hload
  | endOfOutput =>
    simp only [Ingest.step] at hload
    split at hload <;> cases hload
    next hphase =>
      exact htracked.read hstreaming (htracked.follows hstreaming hphase)
        (.inr (.inr (.inr rfl)))
  | waited =>
    simp only [Ingest.step] at hload
    split at hload <;> cases hload
    next hwaited =>
      have hstatus : state.status = .error := htracked.follows hstreaming hwaited.1
      have houtcome : (state.follow { state.load with phase := .yieldingResult }).outcome =
        state.outcome := outcome_load rfl
      refine tracked_follow hstreaming hopen rfl (by simp) ⟨hwaited.2, ?_, ?_⟩
      · rw [show (if disconnects .waited then state.stop else state) = state from rfl, houtcome]
        by_cases hzero : state.load.child = .exited 0
        · simp [State.follow, State.outcome, hzero]
        · have hstopped : ¬ state.stopped = true := fun hstopped =>
            horderly (outcome_eq_cancelled.mpr ⟨hzero, hstopped⟩)
          simp [State.follow, State.outcome, hzero, hstopped, hstatus]
      · exact fun hcancelled => horderly (houtcome.symm.trans hcancelled)
  | resume =>
    simp only [Ingest.step] at hload
    split at hload
    next hphase =>
      cases hload
      exact htracked.read hstreaming (htracked.follows hstreaming hphase) (.inr (.inl rfl))
    next hphase =>
      cases hload
      exact tracked_follow_finished hstreaming hopen rfl
        (htracked.follows hstreaming hphase).2
    next hphase =>
      cases hload
      have hfollows := htracked.follows hstreaming hphase
      refine tracked_follow_finished hstreaming hopen rfl ⟨?_, ?_⟩
      · exact hfollows.2.1.trans hfollows.2.2.symm
      · show state.outcome ≠ .cancelled
        rw [hfollows.2.2]
        simp
    · cases hload
  | raise =>
    simp only [Ingest.step] at hload
    split at hload
    next hphase =>
      cases hload
      exact htracked.fail hstreaming (htracked.follows hstreaming hphase) horderly
    next hphase =>
      cases hload
      exact htracked.fail hstreaming (htracked.follows hstreaming hphase) horderly
    next hphase =>
      cases hload
      exact htracked.fail hstreaming (htracked.follows hstreaming hphase).1 horderly
    next hphase =>
      split at hload <;> cases hload
      exact htracked.fail hstreaming (htracked.follows hstreaming hphase) horderly
    · cases hload
  | deadline =>
    simp only [Ingest.step] at hload
    split at hload
    next hphase =>
      cases hload
      exact htracked.timeout hstreaming (htracked.follows hstreaming hphase) horderly
    next hphase =>
      cases hload
      exact htracked.timeout hstreaming (htracked.follows hstreaming hphase) horderly
    · cases hload
  | cancel =>
    have hcancelled := outcome_stop hstreaming horderly
    have hhandle : Tracked (state.stop.follow state.load.handleCancel) := by
      unfold Ingest.State.handleCancel
      split
      · exact htracked.interrupt hstreaming hcancelled (.inl rfl)
      · exact htracked.interrupt hstreaming hcancelled (.inr rfl)
    simp only [Ingest.step] at hload
    split at hload
    all_goals cases hload
    · exact htracked.interrupt hstreaming hcancelled (.inr rfl)
    · exact hhandle
    · exact hhandle
    · exact hhandle
    all_goals exact htracked.interrupt hstreaming hcancelled (.inr rfl)
  | close => exact horderly.elim
  | graceOver =>
    simp only [Ingest.step] at hload
    split at hload <;> cases hload
    next hphase =>
      have hfollows : state.outcome = .cancelled := htracked.follows hstreaming hphase
      exact htracked.proceed hstreaming rfl (by simp) ((outcome_load rfl).trans hfollows)
  | reaped =>
    simp only [Ingest.step] at hload
    split at hload
    next hchild =>
      split at hload
      next hphase =>
        cases hload
        have hfollows := htracked.follows hstreaming hphase
        refine htracked.proceed hstreaming rfl (by simp) ⟨hchild, ?_, ?_⟩
        · exact (follow_status (by simp)).trans hfollows.1
        · exact (outcome_load rfl).trans hfollows.2
      next hphase =>
        cases hload
        exact tracked_follow_finished hstreaming hopen rfl
          (htracked.follows hstreaming hphase)
      next hphase =>
        cases hload
        exact tracked_follow_finished hstreaming hopen rfl
          (htracked.follows hstreaming hphase)
      · cases hload
    · cases hload

/-! ### The steps of `event_generator` -/

theorem Tracked.finish (hopen : state.Open) (houtcome : status = state.outcome) :
    Tracked (state.finish status) := by
  unfold State.finish
  split
  next hrow => exact ⟨trivial, .inl hrow⟩
  next row hrow =>
    have hrunning : state.row = some .running := by
      rcases hopen with hnone | hrunning
      · rw [hrow] at hnone
        cases hnone
      · exact hrunning
    exact ⟨houtcome, hrunning⟩

theorem Tracked.cancel (htracked : Tracked state) (horderly : Orderly maxLineBytes state .cancel)
    (hcancel : state.stop.cancel = some next) : Tracked next := by
  have hknows := htracked.knows
  have hwritten := htracked.written
  unfold State.Knows at hknows
  unfold State.Written at hwritten
  unfold Orderly at horderly
  have hunstarted : state.undecided = true → state.load = ⟨.absent, .spawning⟩ →
      state.stop.outcome = .cancelled := by
    intro hundecided hload
    rw [stop_eq_of_undecided hundecided]
    exact outcome_eq_cancelled.mpr ⟨by simp [hload], rfl⟩
  unfold State.cancel at hcancel
  split at hcancel
  next hphase =>
    cases hcancel
    rw [show state.phase = .inserting from hphase] at hwritten
    exact ⟨trivial, .inl hwritten⟩
  next hphase =>
    rw [show state.phase = .inserted from hphase] at horderly
    exact horderly.elim
  next hphase =>
    rw [show state.phase = .finishing from hphase] at horderly
    exact horderly.elim
  next hphase =>
    have hphase : state.phase = .finished := hphase
    cases hcancel
    rw [stop_eq_of_decided (by rw [State.undecided, hphase])]
    rw [hphase] at hwritten
    exact ⟨trivial, hwritten⟩
  next hphase =>
    have hphase : state.phase = .acquiring := hphase
    cases hcancel
    rw [hphase] at hknows hwritten
    exact Tracked.finish hwritten (hunstarted (by rw [State.undecided, hphase]) hknows.1).symm
  next hphase =>
    have hphase : state.phase = .locking := hphase
    cases hcancel
    rw [hphase] at hknows hwritten
    exact ⟨hunstarted (by rw [State.undecided, hphase]) hknows.1, hwritten⟩
  next ending hphase =>
    have hphase : state.phase = .releasing ending := hphase
    cases hcancel
    rw [stop_eq_of_decided (by rw [State.undecided, hphase])]
    rw [hphase] at hwritten horderly
    exact ⟨horderly, hwritten⟩
  all_goals cases hcancel

theorem Tracked.raise (htracked : Tracked state) (horderly : Orderly maxLineBytes state .raise)
    (hraise : state.raise = some next) : Tracked next := by
  have hknows := htracked.knows
  have hwritten := htracked.written
  unfold State.Knows at hknows
  unfold State.Written at hwritten
  have hunstarted : state.load = ⟨.absent, .spawning⟩ ∧ state.stopped = false ∧
      state.status = .error → state.status = state.outcome := by
    rintro ⟨hload, hstopped, hstatus⟩
    exact hstatus.trans (outcome_eq_error.mpr ⟨by simp [hload], hstopped⟩).symm
  unfold State.raise at hraise
  split at hraise
  next hphase =>
    cases hraise
    rw [hphase] at hknows hwritten
    exact ⟨⟨hunstarted hknows, horderly.2⟩, hwritten⟩
  next ending hphase =>
    cases hraise
    rw [hphase] at hknows hwritten
    cases ending with
    | returned | raised => exact ⟨hknows, hwritten⟩
    | cancelled => exact absurd hknows horderly.2
    | closed => exact hknows.elim
  next hphase =>
    cases hraise
    rw [hphase] at hknows hwritten
    exact ⟨⟨hunstarted hknows, horderly.2⟩, hwritten⟩
  next hphase => exact absurd hphase horderly.1
  all_goals cases hraise

theorem Tracked.leave (htracked : Tracked state) (hphase : state.phase = .releasing ending) :
    Tracked (state.leave ending) := by
  have hknows := htracked.knows
  have hopen : state.Open := by
    have hwritten := htracked.written
    rw [State.Written, hphase] at hwritten
    exact hwritten
  unfold State.Knows at hknows
  rw [hphase] at hknows
  cases ending with
  | returned => exact Tracked.finish hopen hknows.1
  | raised => exact ⟨hknows, hopen⟩
  | cancelled => exact Tracked.finish hopen hknows.symm
  | closed => exact hknows.elim

theorem Tracked.userCancel (htracked : Tracked state) (hstreaming : state.phase = .streaming)
    (hrunning : state.load.child = .running) : Tracked state.stop := by
  have hopen := htracked.isOpen hstreaming
  have hstop : state.stop.Follows state.load.phase := by
    cases hphase : state.load.phase with
    | spawning =>
      have hfollows := htracked.follows hstreaming hphase
      rw [hfollows.1] at hrunning
      cases hrunning
    | draining | reading | yieldingLog | waiting => exact htracked.follows hstreaming hphase
    | yieldingResult | yieldingTimeout =>
      exact absurd hrunning (htracked.follows hstreaming hphase).1
    | timeoutReaping =>
      have hdecided : state.undecided = false := by
        simp [State.undecided, hstreaming, hrunning, hphase]
      rw [stop_eq_of_decided hdecided]
      exact htracked.follows hstreaming hphase
    | terminating | killing =>
      exact outcome_stop_of_cancelled (htracked.follows hstreaming hphase)
    | finished ending => exact htracked.follows hstreaming hphase
  refine ⟨?_, ?_⟩
  · simp only [State.Knows, State.stop, hstreaming]
    exact hstop
  · simp only [State.Written, State.stop, hstreaming]
    exact hopen

/-- `_stream_process` is asked for its first event. -/
theorem tracked_streaming (hload : state.load = ⟨.absent, .spawning⟩)
    (hfollows : state.stopped = false ∧ state.status = .error) (hopen : state.Open) :
    Tracked { state with phase := .streaming } := by
  have hphase : state.load.phase = .spawning := by rw [hload]
  refine ⟨?_, hopen⟩
  simp only [State.Knows, hphase]
  exact ⟨by rw [hload], hfollows⟩

theorem tracked_step (htracked : Tracked state) (horderly : Orderly maxLineBytes state event)
    (hstep : step maxLineBytes state event = some next) : Tracked next := by
  have hknows := htracked.knows
  have hwritten := htracked.written
  unfold State.Knows at hknows
  unfold State.Written at hwritten
  cases event with
  | inserted =>
    simp only [step] at hstep
    split at hstep <;> cases hstep
    next hphase =>
      rw [hphase] at hknows
      exact ⟨hknows, .inr rfl⟩
  | unavailable =>
    simp only [step] at hstep
    split at hstep <;> cases hstep
    next hphase =>
      rw [hphase] at hknows hwritten
      exact ⟨hknows, .inl hwritten⟩
  | started =>
    simp only [step] at hstep
    split at hstep <;> cases hstep
    next hphase =>
      rw [hphase] at hknows hwritten
      exact ⟨hknows, hwritten⟩
  | resume =>
    simp only [step] at hstep
    split at hstep
    next hphase =>
      cases hstep
      rw [hphase] at hknows hwritten
      exact ⟨hknows, hwritten⟩
    next hphase =>
      cases hstep
      rw [hphase] at hknows hwritten
      exact Tracked.finish hwritten hknows.1
    · cases hstep
  | granted =>
    simp only [step] at hstep
    split at hstep <;> cases hstep
    next hphase =>
      rw [hphase] at hknows hwritten
      split
      · exact ⟨hknows, hwritten⟩
      · exact tracked_streaming hknows.1 hknows.2 hwritten
  | locked =>
    simp only [step] at hstep
    split at hstep <;> cases hstep
    next hphase =>
      rw [hphase] at hknows hwritten
      exact tracked_streaming hknows.1 hknows.2 hwritten
  | load event =>
    simp only [step] at hstep
    split at hstep
    · obtain ⟨load, hload, rfl⟩ := Option.map_eq_some_iff.mp hstep
      by_cases hstreaming : state.phase = .streaming
      · exact tracked_load htracked hstreaming horderly hload
      · cases event with
        | childExit returncode =>
          simp only [Ingest.step] at hload
          split at hload <;> cases hload
          next hrunning => exact tracked_abandoned htracked hstreaming horderly hrunning
        | _ =>
          next hof => exact absurd (hof.resolve_left hstreaming) (by simp [ofChild])
    · cases hstep
  | userCancel =>
    simp only [step] at hstep
    split at hstep <;> cases hstep
    next hchild => exact htracked.userCancel hchild.1 hchild.2
  | released =>
    simp only [step] at hstep
    split at hstep
    next ending hphase =>
      cases hstep
      exact htracked.leave hphase
    · cases hstep
  | raise => exact htracked.raise horderly hstep
  | committed =>
    simp only [step] at hstep
    split at hstep <;> cases hstep
    next hphase =>
      rw [hphase] at hknows
      exact ⟨trivial, .inr (congrArg some hknows)⟩
  | closed =>
    simp only [step] at hstep
    split at hstep <;> cases hstep
    next hphase =>
      rw [hphase] at hwritten
      exact ⟨trivial, hwritten⟩
  | cancel => exact htracked.cancel horderly hstep
  | close => exact horderly.elim

/-! ## The guarantee -/

/-- Only the insert and the one update write the row. -/
theorem row_of_step (hstep : step maxLineBytes state event = some next)
    (hinserting : state.phase ≠ .inserting) (hfinishing : state.phase ≠ .finishing) :
    next.row = state.row := by
  have hfinish (status : RunStatus) : (state.finish status).row = state.row := by
    unfold State.finish
    split <;> rfl
  cases event with
  | inserted | unavailable =>
    simp only [step, if_neg hinserting] at hstep
    cases hstep
  | committed =>
    simp only [step, if_neg hfinishing] at hstep
    cases hstep
  | started | granted | locked | userCancel | closed =>
    simp only [step] at hstep
    split at hstep <;> cases hstep
    rfl
  | resume =>
    simp only [step] at hstep
    split at hstep <;> cases hstep
    · rfl
    · exact hfinish _
  | load event =>
    simp only [step] at hstep
    split at hstep
    · obtain ⟨load, -, rfl⟩ := Option.map_eq_some_iff.mp hstep
      cases disconnects event <;> rfl
    · cases hstep
  | released =>
    simp only [step] at hstep
    split at hstep
    next ending _ =>
      cases hstep
      cases ending with
      | returned | cancelled => exact hfinish _
      | raised | closed => rfl
    · cases hstep
  | raise =>
    simp only [step, State.raise] at hstep
    split at hstep <;> cases hstep <;> rfl
  | cancel =>
    have hstop (status : RunStatus) : (state.stop.finish status).row = state.row := by
      unfold State.finish
      split <;> rfl
    simp only [step, State.cancel] at hstep
    split at hstep <;> cases hstep <;> first | rfl | exact hstop _
  | close =>
    simp only [step] at hstep
    split at hstep <;> cases hstep <;> rfl

theorem Tracked.truthful (htracked : Tracked state) : Truthful maxLineBytes state where
  ended hphase hrow := by
    have hwritten := htracked.written
    rw [State.Written, hphase] at hwritten
    exact hwritten.resolve_left hrow
  kept event next hstep status hterminal hrow := by
    have hwritten := htracked.written
    refine (row_of_step hstep ?_ ?_).trans hrow
    · intro hphase
      rw [State.Written, hphase] at hwritten
      rw [hwritten] at hrow
      cases hrow
    · intro hphase
      rw [State.Written, hphase] at hwritten
      rw [hwritten] at hrow
      cases hrow
      rcases hterminal with hstatus | hstatus | hstatus <;> cases hstatus

/-- **The ingest history.** In every state of an orderly run the row of an ended run tells how
it has ended, and a terminal row does not change. -/
theorem truthful_of_orderly
    (hpath : (machine maxLineBytes needsDuckdbLock).Path (Orderly maxLineBytes) events state) :
    Truthful maxLineBytes state := by
  have htracked : Tracked state := hpath.invariant tracked_init fun h horderly hstep =>
    tracked_step h horderly hstep
  exact htracked.truthful

/-- The browser leaves while a DuckDB load runs. -/
theorem truthful_of_disconnect :
    ∃ state, Truthful Ingest.maxLineBytes state ∧ state.phase = .ended ∧
      state.row = some .cancelled := by
  obtain ⟨state, hrun, hended, hrow⟩ : ∃ state,
      (machine Ingest.maxLineBytes true).runUnder (Orderly Ingest.maxLineBytes)
        (machine Ingest.maxLineBytes true).init
        [.inserted, .started, .resume, .granted, .locked, .load .spawned, .load .drained,
          .load (.line 70 false), .load .resume, .load .cancel, .load (.childExit (-15)),
          .load .reaped, .released, .committed, .closed] = some state ∧
      state.phase = .ended ∧ state.row = some .cancelled := ⟨_, rfl, rfl, rfl⟩
  exact ⟨state, truthful_of_orderly (Machine.path_of_runUnder hrun), hended, hrow⟩

/-- The browser leaves after the `started` event has been sent, and the row stays `running`. -/
theorem not_truthful_of_close :
    ¬ ∀ (maxLineBytes : ℕ) (needsDuckdbLock : Bool) (events : List Event) (state : State),
      (machine maxLineBytes needsDuckdbLock).Path Machine.anyStep events state →
        Truthful maxLineBytes state := by
  intro hclaim
  obtain ⟨state, hrun, hended, hrow, houtcome⟩ : ∃ state,
      (machine Ingest.maxLineBytes false).runFrom (machine Ingest.maxLineBytes false).init
        [.inserted, .started, .close] = some state ∧
      state.phase = .ended ∧ state.row = some .running ∧ state.outcome = .cancelled :=
    ⟨_, rfl, rfl, rfl, rfl⟩
  have hright := (hclaim _ _ _ _ (Machine.path_of_runFrom hrun)).ended hended (by simp [hrow])
  rw [hrow, houtcome] at hright
  cases hright

end DbtCraft.Routers.IngestRun

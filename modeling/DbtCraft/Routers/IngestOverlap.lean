/-
# One load per ingest source

At most one process is to work in the pipeline directory of a source, the directory is to be
deleted only while none does, and `_processes` is to name the one there is, so that a cancel
reaches it. Only the project lock keeps two loads apart, and only loads into DuckDB take it;
the directory is deleted before any lock. Along every run in which no directory is deleted
under a load, no two loads without the lock overlap, and no process is given up alive, the
promise holds.
-/

import DbtCraft.Routers.IngestRequests
import DbtCraft.Routers.Orphans

namespace DbtCraft.Routers

open DbtCraft.Math DbtCraft.Python

namespace IngestRun

variable {maxLineBytes : ℕ} {state next : State} {event : Event}

/-- `_stream_process` is not begun. -/
def Phase.BeforeLoad : Phase → Prop
  | .inserting | .inserted | .yieldingStarted | .acquiring | .locking => True
  | .streaming | .releasing _ | .yieldingError | .finishing | .finished | .ended => False

/-- A run has a process only while it iterates `_stream_process`. -/
structure Contained (state : State) : Prop where
  settled : Ingest.Settled state.load
  unbegun : state.phase.BeforeLoad → state.load.phase = .spawning
  outside : state.phase ≠ .streaming → state.load.child ≠ .running

theorem contained_init (needsDuckdbLock : Bool) : Contained { needsDuckdbLock } where
  settled := ⟨fun _ => rfl, fun _ => by simp⟩
  unbegun _ := rfl
  outside _ := by simp

/-- What a step outside of `_stream_process` leaves alone. -/
structure Frame (state : State) (event : Event) (next : State) : Prop where
  load : next.load = state.load
  needsDuckdbLock : next.needsDuckdbLock = state.needsDuckdbLock
  stays : state.phase = .streaming → next.phase = .streaming
  enters : next.phase = .streaming → state.phase = .streaming ∨
    state.phase.BeforeLoad ∧ (state.needsDuckdbLock = true → event = .locked)
  unbegun : next.phase.BeforeLoad → state.phase.BeforeLoad

theorem frame_finish (status : Services.RunOutcome.RunStatus) (hphase : state.phase ≠ .streaming) :
    Frame state event (state.finish status) := by
  unfold State.finish
  split <;> exact ⟨rfl, rfl, fun h => absurd h hphase, by rintro ⟨⟩, False.elim⟩

theorem frame_of_step (hstep : step maxLineBytes state event = some next)
    (hevent : ∀ inner, event ≠ .load inner) : Frame state event next := by
  cases event with
  | inserted | unavailable | started =>
    simp only [step] at hstep
    split at hstep <;> cases hstep
    next hphase =>
      exact ⟨rfl, rfl, fun h => by simp [hphase] at h, by rintro ⟨⟩,
        fun _ => by rw [hphase]; exact trivial⟩
  | resume =>
    simp only [step] at hstep
    split at hstep
    next hphase =>
      cases hstep
      exact ⟨rfl, rfl, fun h => by simp [hphase] at h, by rintro ⟨⟩,
        fun _ => by rw [hphase]; exact trivial⟩
    next hphase =>
      cases hstep
      exact frame_finish _ (by simp [hphase])
    · cases hstep
  | granted =>
    simp only [step] at hstep
    split at hstep <;> cases hstep
    next hphase =>
      refine ⟨rfl, rfl, fun h => by simp [hphase] at h, ?_, ?_⟩
      · intro hnext
        refine .inr ⟨by rw [hphase]; exact trivial, fun hlock => ?_⟩
        simp [hlock] at hnext
      · exact fun _ => by rw [hphase]; exact trivial
  | locked =>
    simp only [step] at hstep
    split at hstep <;> cases hstep
    next hphase =>
      exact ⟨rfl, rfl, fun h => by simp [hphase] at h,
        fun _ => .inr ⟨by rw [hphase]; exact trivial, fun _ => rfl⟩, False.elim⟩
  | load inner => exact absurd rfl (hevent inner)
  | userCancel =>
    simp only [step] at hstep
    split at hstep <;> cases hstep
    exact ⟨rfl, rfl, fun h => h, .inl, fun h => h⟩
  | released =>
    simp only [step] at hstep
    split at hstep
    next ending hphase =>
      cases hstep
      cases ending with
      | returned | cancelled => exact frame_finish _ (by simp [hphase])
      | raised | closed =>
        exact ⟨rfl, rfl, fun h => by simp [hphase] at h, by rintro ⟨⟩, False.elim⟩
    · cases hstep
  | raise =>
    simp only [step, State.raise] at hstep
    split at hstep
    all_goals cases hstep
    all_goals
      next hphase =>
        exact ⟨rfl, rfl, fun h => by simp [hphase] at h, by rintro ⟨⟩, False.elim⟩
  | committed | closed =>
    simp only [step] at hstep
    split at hstep <;> cases hstep
    next hphase =>
      exact ⟨rfl, rfl, fun h => by simp [hphase] at h, by rintro ⟨⟩, False.elim⟩
  | cancel =>
    have hstop : Frame state.stop .cancel next → Frame state .cancel next := fun h =>
      ⟨h.load, h.needsDuckdbLock, h.stays, h.enters, h.unbegun⟩
    simp only [step, State.cancel] at hstep
    apply hstop
    split at hstep
    all_goals cases hstep
    case h_5 hphase => exact frame_finish _ (by simp [hphase])
    all_goals
      next hphase =>
        exact ⟨rfl, rfl, fun h => by simp [hphase] at h, by rintro ⟨⟩, False.elim⟩
  | close =>
    simp only [step] at hstep
    split at hstep
    all_goals cases hstep
    all_goals
      next hphase =>
        exact ⟨rfl, rfl, fun h => by simp [hphase] at h, by rintro ⟨⟩, False.elim⟩

/-- A step of `_stream_process`. -/
theorem load_of_step {inner : Ingest.Event} (hstep : step maxLineBytes state (.load inner) = some next) :
    Ingest.step maxLineBytes state.load inner = some next.load ∧
      next.needsDuckdbLock = state.needsDuckdbLock ∧
      (next.phase.BeforeLoad → state.phase.BeforeLoad) ∧
      (next.phase = .streaming ↔ state.phase = .streaming ∧ ¬ next.load.phase.Ended) ∧
      (state.phase = .streaming ∨ ofChild inner = true) := by
  simp only [step] at hstep
  split at hstep
  next hof =>
    obtain ⟨load, hload, rfl⟩ := Option.map_eq_some_iff.mp hstep
    have hphase : (if disconnects inner then state.stop else state).phase = state.phase := by
      split <;> rfl
    have hneeds : (if disconnects inner then state.stop else state).needsDuckdbLock =
        state.needsDuckdbLock := by
      split <;> rfl
    refine ⟨hload, hneeds, ?_, ?_, hof⟩
    · unfold State.follow
      rw [hphase]
      cases hat : state.phase <;> cases hpoint : load.phase <;> exact fun h => h
    · unfold State.follow
      rw [hphase]
      cases hat : state.phase <;> cases hpoint : load.phase <;>
        simp [Ingest.Phase.Ended]
  · cases hstep

theorem child_of_ofChild {inner : Ingest.Event} {load next : Ingest.State}
    (hof : ofChild inner = true) (hstep : Ingest.step maxLineBytes load inner = some next) :
    load.child = .running ∧ next.child ≠ .running ∧ next.phase = load.phase := by
  cases inner with
  | childExit returncode =>
    simp only [Ingest.step] at hstep
    split at hstep <;> cases hstep
    next hrunning => exact ⟨hrunning, by simp, rfl⟩
  | _ => cases hof

theorem Contained.step (hcontained : Contained state)
    (hsupervised : ∀ inner, event = .load inner → Ingest.Supervised maxLineBytes state.load inner)
    (hstep : step maxLineBytes state event = some next) : Contained next := by
  by_cases hevent : ∃ inner, event = .load inner
  · obtain ⟨inner, rfl⟩ := hevent
    obtain ⟨hload, -, hunbegun, hstreaming, hof⟩ := load_of_step hstep
    have hsettled := Ingest.settled_step hcontained.settled (hsupervised inner rfl) hload
    refine ⟨hsettled, ?_, ?_⟩
    · intro hbefore
      have hphase := hcontained.unbegun (hunbegun hbefore)
      rcases hof with hat | hchild
      · have hnot := hunbegun hbefore
        rw [hat] at hnot
        exact hnot.elim
      · have hrunning := (child_of_ofChild hchild hload).1
        rw [hcontained.settled.unstarted hphase] at hrunning
        cases hrunning
    · intro houtside
      rcases hof with hat | hchild
      · have hended : next.load.phase.Ended := by
          by_contra hnot
          exact houtside (hstreaming.mpr ⟨hat, hnot⟩)
        exact hsettled.waited hended.pastWait
      · exact (child_of_ofChild hchild hload).2.1
  · have hframe := frame_of_step hstep fun inner h => hevent ⟨inner, h⟩
    refine ⟨?_, ?_, ?_⟩
    · rw [hframe.load]
      exact hcontained.settled
    · rw [hframe.load]
      exact fun hbefore => hcontained.unbegun (hframe.unbegun hbefore)
    · rw [hframe.load]
      exact fun houtside => hcontained.outside fun hat => houtside (hframe.stays hat)

/-- `_stream_process` leaves its first point only with a registered process. -/
theorem spawned_of_step {inner : Ingest.Event} {load next : Ingest.State}
    (hphase : load.phase = .spawning) (hstep : Ingest.step maxLineBytes load inner = some next)
    (hended : ¬ next.phase.Ended) (hleft : next.phase ≠ .spawning) : inner = .spawned := by
  cases inner with
  | spawned => rfl
  | childExit returncode =>
    simp only [Ingest.step] at hstep
    split at hstep <;> cases hstep
    exact absurd hphase hleft
  | spawnFailed | cancel =>
    simp only [Ingest.step, hphase, if_true] at hstep
    cases hstep
    exact absurd trivial hended
  | drained | line bytes isResult | endOfOutput | waited | graceOver =>
    simp only [Ingest.step, hphase, reduceCtorEq, false_and, if_false] at hstep
  | resume | raise | deadline | close =>
    simp only [Ingest.step, hphase, reduceCtorEq] at hstep
  | reaped =>
    simp only [Ingest.step, hphase, reduceCtorEq, ite_self] at hstep

end IngestRun

namespace IngestRequests

variable {maxLineBytes : ℕ} {state next : State} {event : Event} {events : List Event}
  {request other : ℕ} {inner : IngestRun.Event} {run : IngestRun.State}

/-! ## The guarantee -/

structure OneLoad (state : State) : Prop where
  atMostOne : ∀ first second, state.Live first → state.Live second → first = second
  named : ∀ request, state.Live request → state.processes = some request
  refreshed : ∀ removal ∈ state.removals, removal = []
  terminated : ∀ cancellation ∈ state.cancellations, ∀ request ∈ cancellation.live,
    cancellation.terminated = some request

/-- The request is between its entry in `_processes` and the `finally` that pops it. -/
def State.Underway (state : State) (request : ℕ) : Prop :=
  request < state.received ∧ (state.runs request).phase = .streaming ∧
    (state.runs request).load.phase ≠ .spawning

instance (state : State) (request : ℕ) : Decidable (state.Underway request) :=
  inferInstanceAs (Decidable (_ ∧ _))

/-- Two loads that take the project lock. -/
def State.Serialised (state : State) (first second : ℕ) : Prop :=
  (state.runs first).needsDuckdbLock = true ∧ (state.runs second).needsDuckdbLock = true

instance (state : State) (first second : ℕ) : Decidable (state.Serialised first second) :=
  inferInstanceAs (Decidable (_ ∧ _))

/-- No directory is deleted under a live load, only the lock lets a process start beside
another, its key stays with its holder, and no process is given up alive. -/
def Orderly (maxLineBytes : ℕ) (state : State) : Event → Prop
  | .request fullRefresh _ => fullRefresh = true → state.live = []
  | .run request (.load event) =>
    Ingest.Supervised maxLineBytes (state.runs request).load event ∧
      (event = .spawned → ∀ other < state.received, state.Underway other → other ≠ request →
        state.Serialised request other)
  | .unlock => ∀ request < state.received, state.lock = some request →
    (state.runs request).phase ≠ .streaming
  | .run _ _ | .cancelIngest => True

instance (maxLineBytes : ℕ) (state : State) (event : Event) :
    Decidable (Orderly maxLineBytes state event) := by
  cases event with
  | run request event =>
    rcases event with _ | _ | _ | _ | _ | _ | _ | _ | _ | _ | _ | _ | _ | _ <;> unfold Orderly <;>
      infer_instance
  | _ => unfold Orderly; infer_instance

/-! ## The invariant -/

structure Inv (state : State) : Prop where
  contained : ∀ request < state.received, IngestRun.Contained (state.runs request)
  locked : ∀ request < state.received, (state.runs request).phase = .streaming →
    (state.runs request).needsDuckdbLock = true → state.lock = some request
  exclusive : ∀ first second, state.Underway first → state.Underway second → first = second
  named : ∀ request, state.Underway request → state.processes = some request
  refreshed : ∀ removal ∈ state.removals, removal = []
  terminated : ∀ cancellation ∈ state.cancellations, ∀ request ∈ cancellation.live,
    cancellation.terminated = some request

theorem inv_init : Inv (machine maxLineBytes).init where
  contained _ hrequest := absurd hrequest (Nat.not_lt_zero _)
  locked _ hrequest := absurd hrequest (Nat.not_lt_zero _)
  exclusive _ _ hfirst := absurd hfirst.1 (Nat.not_lt_zero _)
  named _ hrequest := absurd hrequest.1 (Nat.not_lt_zero _)
  refreshed _ hremoval := by cases hremoval
  terminated _ hcancellation := by cases hcancellation

theorem mem_live : request ∈ state.live ↔ state.Live request := by
  simp only [State.live, List.mem_filter, List.mem_range, decide_eq_true_eq]
  exact ⟨fun h => h.2, fun h => ⟨h.1, h⟩⟩

theorem Inv.underway (hinv : Inv state) (hlive : state.Live request) : state.Underway request := by
  have hcontained := hinv.contained request hlive.1
  refine ⟨hlive.1, ?_, ?_⟩
  · by_contra houtside
    exact hcontained.outside houtside hlive.2
  · intro hphase
    have habsent := hcontained.settled.unstarted hphase
    rw [hlive.2] at habsent
    cases habsent

theorem Inv.oneLoad (hinv : Inv state) : OneLoad state where
  atMostOne first second hfirst hsecond :=
    hinv.exclusive first second (hinv.underway hfirst) (hinv.underway hsecond)
  named request hlive := hinv.named request (hinv.underway hlive)
  refreshed := hinv.refreshed
  terminated := hinv.terminated

/-! ## The steps -/

theorem Inv.ingestSse {fullRefresh needsDuckdbLock : Bool} (hinv : Inv state)
    (horderly : fullRefresh = true → state.live = []) :
    Inv (state.ingestSse fullRefresh needsDuckdbLock) := by
  have hearlier : ∀ request < state.received,
      (state.ingestSse fullRefresh needsDuckdbLock).runs request = state.runs request := by
    intro request hrequest
    exact Function.update_of_ne (Nat.ne_of_lt hrequest) _ _
  have hnew : (state.ingestSse fullRefresh needsDuckdbLock).runs state.received =
      { needsDuckdbLock } := Function.update_self _ _ _
  have hcases : ∀ request < state.received + 1,
      request < state.received ∨ request = state.received := fun request hrequest => by omega
  have hunderway : ∀ request, (state.ingestSse fullRefresh needsDuckdbLock).Underway request →
      state.Underway request := by
    rintro request ⟨hrequest, hphase⟩
    rcases hcases request hrequest with hbefore | rfl
    · rw [hearlier request hbefore] at hphase
      exact ⟨hbefore, hphase⟩
    · rw [hnew] at hphase
      cases hphase.1
  refine ⟨?_, ?_, ?_, ?_, ?_, hinv.terminated⟩
  · intro request hrequest
    rcases hcases request hrequest with hbefore | rfl
    · rw [hearlier request hbefore]
      exact hinv.contained request hbefore
    · rw [hnew]
      exact IngestRun.contained_init needsDuckdbLock
  · intro request hrequest
    rcases hcases request hrequest with hbefore | rfl
    · rw [hearlier request hbefore]
      exact hinv.locked request hbefore
    · rw [hnew]
      rintro ⟨⟩
  · exact fun first second hfirst hsecond =>
      hinv.exclusive first second (hunderway first hfirst) (hunderway second hsecond)
  · exact fun request hrequest => hinv.named request (hunderway request hrequest)
  · intro removal hremoval
    cases fullRefresh with
    | false => exact hinv.refreshed removal hremoval
    | true =>
      rcases List.mem_append.mp hremoval with hbefore | hnow
      · exact hinv.refreshed removal hbefore
      · rw [List.mem_singleton.mp hnow]
        exact horderly rfl

/-- A cancel changes nothing of a run but that it was stopped. -/
theorem Inv.stop (hinv : Inv state) :
    Inv { state with runs := Function.update state.runs request (state.runs request).stop } := by
  have hsame : ∀ other,
      (Function.update state.runs request (state.runs request).stop other).phase =
          (state.runs other).phase ∧
        (Function.update state.runs request (state.runs request).stop other).load =
            (state.runs other).load ∧
          (Function.update state.runs request (state.runs request).stop other).needsDuckdbLock =
            (state.runs other).needsDuckdbLock := by
    intro other
    by_cases hother : other = request
    · subst hother
      rw [Function.update_self]
      exact ⟨rfl, rfl, rfl⟩
    · rw [Function.update_of_ne hother]
      exact ⟨rfl, rfl, rfl⟩
  have hunderway : ∀ other, State.Underway
      { state with runs := Function.update state.runs request (state.runs request).stop } other →
        state.Underway other := by
    rintro other ⟨hother, hphase⟩
    rw [(hsame other).1, (hsame other).2.1] at hphase
    exact ⟨hother, hphase⟩
  refine ⟨?_, ?_, ?_, ?_, hinv.refreshed, hinv.terminated⟩
  · intro other hother
    obtain ⟨hphase, hload, -⟩ := hsame other
    obtain ⟨hsettled, hunbegun, houtside⟩ := hinv.contained other hother
    refine ⟨?_, ?_, ?_⟩
    · rw [hload]
      exact hsettled
    · rw [hload, hphase]
      exact hunbegun
    · rw [hload, hphase]
      exact houtside
  · intro other hother
    obtain ⟨hphase, -, hneeds⟩ := hsame other
    rw [hphase, hneeds]
    exact hinv.locked other hother
  · exact fun first second hfirst hsecond =>
      hinv.exclusive first second (hunderway first hfirst) (hunderway second hsecond)
  · exact fun other hother => hinv.named other (hunderway other hother)

/-- A cancellation that terminates the one live load. -/
theorem Inv.recordCancellation {cancellation : Cancellation} (hinv : Inv state)
    (hterminated : ∀ request ∈ cancellation.live, cancellation.terminated = some request) :
    Inv { state with cancellations := state.cancellations ++ [cancellation] } where
  contained := hinv.contained
  locked := hinv.locked
  exclusive := hinv.exclusive
  named := hinv.named
  refreshed := hinv.refreshed
  terminated := by
    intro recorded hrecorded
    rcases List.mem_append.mp hrecorded with hbefore | hnow
    · exact hinv.terminated recorded hbefore
    · rw [List.mem_singleton.mp hnow]
      exact hterminated

theorem Inv.cancelIngest (hinv : Inv state) : Inv state.cancelIngest := by
  have hnamed : ∀ request ∈ state.live, state.processes = some request := fun request hlive =>
    hinv.named request (hinv.underway (mem_live.mp hlive))
  unfold State.cancelIngest
  split
  next named hprocesses =>
    rw [hprocesses] at hnamed
    split
    · exact hinv.stop.recordCancellation hnamed
    next hended =>
      refine hinv.recordCancellation fun request hlive => ?_
      have hsame : named = request := Option.some.inj (hnamed request hlive)
      rw [hsame] at hended
      exact absurd (mem_live.mp hlive).2 hended
  next hprocesses =>
    rw [hprocesses] at hnamed
    exact hinv.recordCancellation hnamed

/-! ### A step of a run -/

theorem unregisters_eq_true {before after : Ingest.Phase} (h : unregisters before after = true) :
    before ≠ .spawning ∧ ¬ before.Ended ∧ after.Ended := by
  cases before <;> cases after <;> simp [unregisters, Ingest.Phase.Ended] at h ⊢

/-- A run that is under way after its step was so before, unless its process starts. -/
theorem underway_of_step (hinv : Inv state) (hrequest : request < state.received)
    (hstep : IngestRun.step maxLineBytes (state.runs request) inner = some run)
    (hstreaming : run.phase = .streaming) (hphase : run.load.phase ≠ .spawning) :
    state.Underway request ∨ inner = .load .spawned := by
  by_cases hload : ∃ step, inner = .load step
  · obtain ⟨step, rfl⟩ := hload
    obtain ⟨hinner, -, -, hat, -⟩ := IngestRun.load_of_step hstep
    obtain ⟨hbefore, hended⟩ := hat.mp hstreaming
    by_cases hspawning : (state.runs request).load.phase = .spawning
    · exact .inr (congrArg _ (IngestRun.spawned_of_step hspawning hinner hended hphase))
    · exact .inl ⟨hrequest, hbefore, hspawning⟩
  · have hframe := IngestRun.frame_of_step hstep fun step h => hload ⟨step, h⟩
    rw [hframe.load] at hphase
    rcases hframe.enters hstreaming with hbefore | ⟨hunbegun, -⟩
    · exact .inl ⟨hrequest, hbefore, hphase⟩
    · exact absurd ((hinv.contained request hrequest).unbegun hunbegun) hphase

/-- The project lock keeps another load from being under way when a process starts. -/
theorem not_underway_of_spawned (hinv : Inv state) (hrequest : request < state.received)
    (horderly : Orderly maxLineBytes state (.run request (.load .spawned)))
    (hstep : IngestRun.step maxLineBytes (state.runs request) (.load .spawned) = some run)
    (hother : other ≠ request) : ¬ state.Underway other := by
  intro hunderway
  obtain ⟨hfirst, hsecond⟩ := horderly.2 rfl other hunderway.1 hunderway hother
  obtain ⟨-, -, -, -, hof⟩ := IngestRun.load_of_step hstep
  have hstreaming : (state.runs request).phase = .streaming := hof.resolve_right (by simp [IngestRun.ofChild])
  have hlock := hinv.locked request hrequest hstreaming hfirst
  rw [hinv.locked other hunderway.1 hunderway.2.1 hsecond] at hlock
  exact hother (Option.some.inj hlock)

/-- The run whose entry is popped was under way. -/
theorem underway_of_unregisters (hrequest : request < state.received)
    (hstep : IngestRun.step maxLineBytes (state.runs request) inner = some run)
    (hpopped : unregisters (state.runs request).load.phase run.load.phase = true) :
    state.Underway request ∧ run.phase ≠ .streaming := by
  obtain ⟨hspawning, hbefore, hafter⟩ := unregisters_eq_true hpopped
  by_cases hload : ∃ step, inner = .load step
  · obtain ⟨step, rfl⟩ := hload
    obtain ⟨hinner, -, -, hat, hof⟩ := IngestRun.load_of_step hstep
    refine ⟨⟨hrequest, ?_, hspawning⟩, fun hstreaming => (hat.mp hstreaming).2 hafter⟩
    refine hof.resolve_right fun hchild => ?_
    rw [(IngestRun.child_of_ofChild hchild hinner).2.2] at hafter
    exact hbefore hafter
  · have hframe := IngestRun.frame_of_step hstep fun step h => hload ⟨step, h⟩
    rw [hframe.load] at hafter
    exact absurd hafter hbefore

theorem contained_of_step (hinv : Inv state) (hrequest : request < state.received)
    (horderly : Orderly maxLineBytes state (.run request inner))
    (hstep : IngestRun.step maxLineBytes (state.runs request) inner = some run) :
    IngestRun.Contained run := by
  refine (hinv.contained request hrequest).step ?_ hstep
  rintro step rfl
  exact horderly.1

/-- A run that takes the project lock holds its key while it streams. -/
theorem locked_of_step (hinv : Inv state) (hrequest : request < state.received)
    (hstep : IngestRun.step maxLineBytes (state.runs request) inner = some run)
    (hstreaming : run.phase = .streaming) (hneeds : run.needsDuckdbLock = true) :
    (if inner = .locked then some request else state.lock) = some request := by
  split
  · rfl
  next hlocked =>
    by_cases hload : ∃ step, inner = .load step
    · obtain ⟨step, rfl⟩ := hload
      obtain ⟨-, hsame, -, hat, -⟩ := IngestRun.load_of_step hstep
      rw [hsame] at hneeds
      exact hinv.locked request hrequest (hat.mp hstreaming).1 hneeds
    · have hframe := IngestRun.frame_of_step hstep fun step h => hload ⟨step, h⟩
      rw [hframe.needsDuckdbLock] at hneeds
      rcases hframe.enters hstreaming with hbefore | ⟨-, hentered⟩
      · exact hinv.locked request hrequest hbefore hneeds
      · exact absurd (hentered hneeds) hlocked

theorem Inv.advance (hinv : Inv state) (hrequest : request < state.received)
    (horderly : Orderly maxLineBytes state (.run request inner))
    (hlock : inner = .locked → state.lock = none)
    (hadvance : state.advance maxLineBytes request inner = some next) : Inv next := by
  obtain ⟨run, hstep, rfl⟩ := Option.map_eq_some_iff.mp hadvance
  have hself := underway_of_step hinv hrequest hstep
  -- Nobody else is under way beside a run that is so after its step.
  have halone : ∀ other, other ≠ request → state.Underway other → run.phase = .streaming →
      run.load.phase = .spawning := by
    intro other hother hunderway hstreaming
    by_contra hphase
    rcases hself hstreaming hphase with hbefore | rfl
    · exact hother (hinv.exclusive other request hunderway hbefore)
    · exact not_underway_of_spawned hinv hrequest horderly hstep hother hunderway
  refine ⟨?_, ?_, ?_, ?_, hinv.refreshed, hinv.terminated⟩
  · intro other hother
    by_cases hsame : other = request
    · rw [hsame]
      simp only [Function.update_self]
      exact contained_of_step hinv hrequest horderly hstep
    · simp only [Function.update_of_ne hsame]
      exact hinv.contained other hother
  · intro other hother
    by_cases hsame : other = request
    · rw [hsame]
      simp only [Function.update_self]
      exact locked_of_step hinv hrequest hstep
    · simp only [Function.update_of_ne hsame]
      intro hstreaming hneeds
      have hheld := hinv.locked other hother hstreaming hneeds
      split
      next hlocked =>
        rw [hlock hlocked] at hheld
        cases hheld
      · exact hheld
  · rintro first second ⟨hfirst, hfirstPhase⟩ ⟨hsecond, hsecondPhase⟩
    by_cases hone : first = request
    · by_cases htwo : second = request
      · exact hone.trans htwo.symm
      · simp only [hone, Function.update_self] at hfirstPhase
        simp only [Function.update_of_ne htwo] at hsecondPhase
        exact absurd (halone second htwo ⟨hsecond, hsecondPhase⟩ hfirstPhase.1) hfirstPhase.2
    · simp only [Function.update_of_ne hone] at hfirstPhase
      by_cases htwo : second = request
      · simp only [htwo, Function.update_self] at hsecondPhase
        exact absurd (halone first hone ⟨hfirst, hfirstPhase⟩ hsecondPhase.1) hsecondPhase.2
      · simp only [Function.update_of_ne htwo] at hsecondPhase
        exact hinv.exclusive first second ⟨hfirst, hfirstPhase⟩ ⟨hsecond, hsecondPhase⟩
  · rintro other ⟨hother, hphase⟩
    by_cases hsame : other = request
    · simp only [hsame, Function.update_self] at hphase ⊢
      unfold State.register
      split
      · rfl
      next hspawned =>
        have hbefore := (hself hphase.1 hphase.2).resolve_right hspawned
        split
        next hpopped => exact absurd hphase.1 (underway_of_unregisters hrequest hstep hpopped).2
        · exact hinv.named request hbefore
    · simp only [Function.update_of_ne hsame] at hphase
      have hunderway : state.Underway other := ⟨hother, hphase⟩
      unfold State.register
      split
      next hspawned =>
        subst hspawned
        exact absurd hunderway (not_underway_of_spawned hinv hrequest horderly hstep hsame)
      · split
        next hpopped =>
          have hbefore := (underway_of_unregisters hrequest hstep hpopped).1
          exact absurd (hinv.exclusive other request hunderway hbefore) hsame
        · exact hinv.named other hunderway

theorem Inv.unlock (hinv : Inv state) (horderly : Orderly maxLineBytes state .unlock) :
    Inv { state with lock := none } where
  contained := hinv.contained
  locked request hrequest hstreaming hneeds :=
    absurd hstreaming (horderly request hrequest (hinv.locked request hrequest hstreaming hneeds))
  exclusive := hinv.exclusive
  named := hinv.named
  refreshed := hinv.refreshed
  terminated := hinv.terminated

theorem inv_step (hinv : Inv state) (horderly : Orderly maxLineBytes state event)
    (hstep : step maxLineBytes state event = some next) : Inv next := by
  cases event with
  | request fullRefresh needsDuckdbLock =>
    cases hstep
    exact hinv.ingestSse horderly
  | run request inner =>
    obtain ⟨⟨hrequest, -, hlock⟩, hadvance⟩ := Option.ite_none_right_eq_some.mp hstep
    exact hinv.advance hrequest horderly hlock hadvance
  | cancelIngest =>
    cases hstep
    exact hinv.cancelIngest
  | unlock =>
    cases hstep
    exact hinv.unlock horderly

/-- **One load per source**, in every state of an orderly run. -/
theorem oneLoad_of_orderly
    (hpath : (machine maxLineBytes).Path (Orderly maxLineBytes) events state) : OneLoad state := by
  have hinv : Inv state := hpath.invariant inv_init fun h horderly hstep =>
    inv_step h horderly hstep
  exact hinv.oneLoad

/-- A second request waits for the lock of the first, which is cancelled by the user. -/
theorem oneLoad_of_locked_loads :
    ∃ state, OneLoad state ∧ state.cancellations = [⟨[0], some 0⟩] ∧ state.Live 1 := by
  obtain ⟨state, hrun, hcancellations, hlive⟩ : ∃ state,
      (machine Ingest.maxLineBytes).runUnder (Orderly Ingest.maxLineBytes)
        (machine Ingest.maxLineBytes).init
        [.request true true, .run 0 .inserted, .run 0 .started, .run 0 .resume, .run 0 .granted,
          .run 0 .locked, .run 0 (.load .spawned), .run 0 (.load .drained), .request false true,
          .run 1 .unavailable, .run 1 .resume, .run 1 .granted, .cancelIngest,
          .run 0 (.load (.childExit (-15))), .run 0 (.load .endOfOutput), .run 0 (.load .waited),
          .run 0 (.load .resume), .unlock, .run 1 .locked, .run 1 (.load .spawned)] =
        some state ∧ state.cancellations = [⟨[0], some 0⟩] ∧ state.Live 1 :=
    ⟨_, rfl, rfl, by decide⟩
  exact ⟨state, oneLoad_of_orderly (Machine.path_of_runUnder hrun), hcancellations, hlive⟩

/-- Two loads into the lakehouse run side by side. -/
theorem not_oneLoad_of_two_requests :
    ¬ ∀ (maxLineBytes : ℕ) (events : List Event) (state : State),
      (machine maxLineBytes).Path Machine.anyStep events state → OneLoad state := by
  intro hclaim
  obtain ⟨state, hrun, hfirst, hsecond⟩ : ∃ state,
      (machine Ingest.maxLineBytes).runFrom (machine Ingest.maxLineBytes).init
        [.request false false, .run 0 .inserted, .run 0 .started, .run 0 .resume,
          .run 0 .granted, .run 0 (.load .spawned), .request false false, .run 1 .inserted,
          .run 1 .started, .run 1 .resume, .run 1 .granted, .run 1 (.load .spawned)] =
        some state ∧ state.Live 0 ∧ state.Live 1 := ⟨_, rfl, by decide, by decide⟩
  have hsame := (hclaim _ _ _ (Machine.path_of_runFrom hrun)).atMostOne 0 1 hfirst hsecond
  cases hsame

end IngestRequests

end DbtCraft.Routers

/-
# Delivery of live logs

What a reader of a run receives: the replay, every later event once and in order, and the
terminal event last. The queue of a reader is bounded and the hub forgets a run that ends
unobserved, so this holds of a run of the hub exactly when nothing is published over a full
queue and nobody comes after the hub has forgotten the run. A run that has ended leaves
nothing behind in any case.
-/

import DbtCraft.Routers.LogHub
import Mathlib.Data.List.Infix
import Mathlib.Data.List.DropRight

namespace DbtCraft.Routers.LogHub

open DbtCraft.Math DbtCraft.Python

theorem ends_append {events : List Event} {event : Event} :
    Ends (events ++ [event]) ↔ Ends events ∨ event.isTerminal = true := by
  simp [Ends, or_and_right, exists_or]

/-! ## The hub -/

namespace Hub

variable (hub : Hub) {run other : String} {event : Event} {queue : ℕ}

@[simp]
theorem queues_append : (hub.append run event).queues = hub.queues := rfl

@[simp]
theorem terminal_append : (hub.append run event).terminal = hub.terminal := rfl

@[simp]
theorem listeners_append : (hub.append run event).listeners other = hub.listeners other := rfl

theorem buffer_append_self :
    (hub.append run event).buffer run = trim (hub.buffer run ++ [event]) := by
  rw [append, buffer, Dict.get_set, if_pos rfl, Option.getD_some]

theorem buffers_append_other (hne : other ≠ run) :
    (hub.append run event).buffers.get other = hub.buffers.get other := by
  rw [append, Dict.get_set, if_neg hne]

theorem queues_publish : (hub.publish run event).queues = hub.queues := by
  unfold publish close
  split_ifs <;> rfl

@[simp]
theorem listeners_publish : (hub.publish run event).listeners other = hub.listeners other := by
  rw [listeners, queues_publish, listeners]

@[simp]
theorem buffer_subscribe : (hub.subscribe run queue).buffer other = hub.buffer other := rfl

theorem listeners_subscribe :
    (hub.subscribe run queue).listeners other =
      if other = run then insert queue (hub.listeners run) else hub.listeners other := by
  unfold subscribe listeners
  rw [Dict.get_set]
  split_ifs <;> rfl

theorem listeners_unsubscribe :
    (hub.unsubscribe run queue).listeners other =
      if other = run then (hub.listeners run).erase queue else hub.listeners other := by
  unfold unsubscribe
  by_cases hnone : hub.listeners run = ∅
  · rw [if_pos hnone]
    split_ifs with hother
    · rw [hother, hnone, Finset.erase_empty]
    · rfl
  · rw [if_neg hnone]
    by_cases hlast : (hub.listeners run).erase queue = ∅
    · rw [if_pos hlast, hlast]
      split_ifs with hmarked hother hother <;> simp [listeners, hother]
    · rw [if_neg hlast]
      unfold listeners
      rw [Dict.get_set]
      split_ifs <;> rfl

theorem mem_terminal_publish_self (hunmarked : run ∉ hub.terminal) :
    run ∈ (hub.publish run event).terminal ↔
      event.isTerminal = true ∧ hub.listeners run ≠ ∅ := by
  unfold publish close
  split_ifs with hterminal halone
  · rw [listeners_append] at halone
    simp [halone]
  · simpa [hterminal] using halone
  · simp [hterminal, hunmarked]

theorem mem_terminal_publish_other (hne : other ≠ run) :
    other ∈ (hub.publish run event).terminal ↔ other ∈ hub.terminal := by
  unfold publish close
  split_ifs <;> simp [hne]

theorem buffers_publish_other (hne : other ≠ run) :
    (hub.publish run event).buffers.get other = hub.buffers.get other := by
  unfold publish close
  split_ifs <;> simp [hne, buffers_append_other]

theorem buffers_publish_last (hterminal : event.isTerminal = true)
    (halone : hub.listeners run = ∅) : (hub.publish run event).buffers.get run = none := by
  simp [publish, close, hterminal, halone]

theorem buffer_publish_self (hheld : event.isTerminal = true → hub.listeners run ≠ ∅) :
    (hub.publish run event).buffer run = trim (hub.buffer run ++ [event]) := by
  unfold publish close
  split_ifs with hterminal halone
  · exact absurd halone (hheld hterminal)
  · exact buffer_append_self hub
  · exact buffer_append_self hub

/-- What the hub holds of the runs, by what they have published. -/
structure Holds (published : String → List Event) : Prop where
  /-- A set of queues in the hub is not empty. -/
  named : ∀ run, hub.queues.get run ≠ some ∅
  /-- A marked run has ended while somebody listened. -/
  marked : ∀ run ∈ hub.terminal, Ends (published run) ∧ hub.listeners run ≠ ∅
  /-- The buffer of a run that has not ended unmarked has its last events. -/
  buffered : ∀ run, (Ends (published run) → run ∈ hub.terminal) →
    hub.buffer run = trim (published run)
  /-- A run that has ended unmarked has no buffer. -/
  dropped : ∀ run, Ends (published run) → run ∉ hub.terminal → hub.buffers.get run = none

theorem trim_suffix (events : List Event) : trim events <:+ events := List.drop_suffix _ _

/-- A list that is cut to its last items may be cut before it grows. -/
theorem drop_drop_append {α : Type*} {limit : ℕ} (hpositive : 0 < limit) (items : List α)
    (item : α) :
    (items.drop (items.length - limit) ++ [item]).drop
        ((items.drop (items.length - limit) ++ [item]).length - limit) =
      (items ++ [item]).drop ((items ++ [item]).length - limit) := by
  by_cases hsmall : items.length ≤ limit
  · rw [Nat.sub_eq_zero_of_le hsmall, List.drop_zero]
  · simp only [List.length_append, List.length_drop, List.length_singleton]
    rw [List.drop_append_of_le_length (by rw [List.length_drop]; omega),
      List.drop_append_of_le_length (by omega), List.drop_drop]
    congr 2
    omega

theorem bufferLimit_pos : 0 < bufferLimit := by simp [bufferLimit]

theorem trim_trim_append (events : List Event) (event : Event) :
    trim (trim events ++ [event]) = trim (events ++ [event]) :=
  drop_drop_append bufferLimit_pos events event

variable {hub} {published : String → List Event}

/-- The events of the runs after one more publication. -/
def after (published : String → List Event) (run : String) (event : Event) (other : String) :
    List Event :=
  if other = run then published other ++ [event] else published other

theorem Holds.publish (hholds : hub.Holds published) (hopen : ¬ Ends (published run)) :
    (hub.publish run event).Holds (after published run event) := by
  have hunmarked : run ∉ hub.terminal := fun hmarked => hopen (hholds.marked run hmarked).1
  have hbuffer : hub.buffer run = trim (published run) :=
    hholds.buffered run fun hended => absurd hended hopen
  have hself : after published run event run = published run ++ [event] := if_pos rfl
  have hends : Ends (after published run event run) ↔ event.isTerminal = true := by
    rw [hself, ends_append, or_iff_right hopen]
  have hother {other : String} (hne : other ≠ run) :
      after published run event other = published other := if_neg hne
  refine ⟨fun other => queues_publish hub ▸ hholds.named other, fun other hmarked => ?_,
    fun other hkept => ?_, fun other hended hout => ?_⟩
  · rw [listeners_publish]
    by_cases hne : other = run
    · rw [hne, mem_terminal_publish_self hub hunmarked] at hmarked
      rw [hne, hends]
      exact hmarked
    · rw [mem_terminal_publish_other hub hne] at hmarked
      rw [hother hne]
      exact hholds.marked other hmarked
  · by_cases hne : other = run
    · rw [hne, hends, mem_terminal_publish_self hub hunmarked] at hkept
      rw [hne, hself, ← trim_trim_append, ← hbuffer]
      exact buffer_publish_self hub fun hterminal => (hkept hterminal).2
    · rw [mem_terminal_publish_other hub hne, hother hne] at hkept
      rw [hother hne, ← hholds.buffered other hkept, buffer, buffer, buffers_publish_other hub hne]
  · by_cases hne : other = run
    · rw [hne, mem_terminal_publish_self hub hunmarked] at hout
      rw [hne, hends] at hended
      rw [hne]
      exact buffers_publish_last hub hended (by_contra fun halone => hout ⟨hended, halone⟩)
    · rw [mem_terminal_publish_other hub hne] at hout
      rw [hother hne] at hended
      rw [buffers_publish_other hub hne]
      exact hholds.dropped other hended hout

theorem Holds.subscribe (hholds : hub.Holds published) :
    (hub.subscribe run queue).Holds published := by
  refine ⟨fun other hempty => ?_, fun other hmarked => ?_, hholds.buffered, hholds.dropped⟩
  · unfold Hub.subscribe at hempty
    rw [Dict.get_set] at hempty
    split_ifs at hempty with hother
    · exact Finset.insert_ne_empty queue _ (Option.some.inj hempty)
    · exact hholds.named other hempty
  · obtain ⟨hended, hlisteners⟩ := hholds.marked other hmarked
    rw [listeners_subscribe]
    split_ifs
    · exact ⟨hended, Finset.insert_ne_empty queue _⟩
    · exact ⟨hended, hlisteners⟩

theorem Holds.unsubscribe (hholds : hub.Holds published) :
    (hub.unsubscribe run queue).Holds published := by
  have hlisteners (other : String) := @listeners_unsubscribe hub run other queue
  unfold Hub.unsubscribe at hlisteners ⊢
  by_cases hnone : hub.listeners run = ∅
  · rw [if_pos hnone]
    exact hholds
  · rw [if_neg hnone] at hlisteners ⊢
    by_cases hlast : (hub.listeners run).erase queue = ∅
    · rw [if_pos hlast] at hlisteners ⊢
      have hnamed (other : String) : (hub.queues.pop run).get other ≠ some ∅ := by
        rw [Dict.get_pop]
        split_ifs
        · exact fun hnone => by cases hnone
        · exact hholds.named other
      by_cases hmarked : run ∈ hub.terminal
      · rw [if_pos hmarked] at hlisteners ⊢
        refine ⟨hnamed, fun other hother => ?_, fun other hkept => ?_, fun other hended hout => ?_⟩
        · obtain ⟨hne, hother⟩ := Finset.mem_erase.mp hother
          rw [hlisteners, if_neg hne]
          exact hholds.marked other hother
        · by_cases hne : other = run
          · have hended := (hholds.marked run hmarked).1
            rw [hne] at hkept
            exact absurd (hkept hended) (Finset.notMem_erase run _)
          · have hbuffered := hholds.buffered other fun hended =>
              Finset.mem_of_mem_erase (hkept hended)
            rw [← hbuffered, buffer, Dict.get_pop, if_neg hne]
            rfl
        · by_cases hne : other = run
          · simp [hne]
          · have hout : other ∉ hub.terminal := fun hmarked =>
              hout (Finset.mem_erase.mpr ⟨hne, hmarked⟩)
            simpa [hne] using hholds.dropped other hended hout
      · rw [if_neg hmarked] at hlisteners ⊢
        refine ⟨hnamed, fun other hother => ?_, hholds.buffered, hholds.dropped⟩
        have hne : other ≠ run := fun heq => hmarked (heq ▸ hother)
        rw [hlisteners, if_neg hne]
        exact hholds.marked other hother
    · rw [if_neg hlast] at hlisteners ⊢
      refine ⟨fun other hempty => ?_, fun other hother => ?_, hholds.buffered, hholds.dropped⟩
      · rw [Dict.get_set] at hempty
        split_ifs at hempty
        · exact hlast (Option.some.inj hempty)
        · exact hholds.named other hempty
      · obtain ⟨hended, hothers⟩ := hholds.marked other hother
        rw [hlisteners]
        split_ifs
        · exact ⟨hended, hlast⟩
        · exact ⟨hended, hothers⟩

/-- Of a run that has ended and has no listener the hub holds nothing. -/
theorem Holds.forgotten (hholds : hub.Holds published) (hended : Ends (published run))
    (halone : hub.listeners run = ∅) :
    hub.buffers.get run = none ∧ hub.queues.get run = none ∧ run ∉ hub.terminal := by
  have hunmarked : run ∉ hub.terminal := fun hmarked => (hholds.marked run hmarked).2 halone
  refine ⟨hholds.dropped run hended hunmarked, ?_, hunmarked⟩
  cases hqueues : hub.queues.get run with
  | none => rfl
  | some queues =>
    rw [listeners, hqueues, Option.getD_some] at halone
    exact absurd (halone ▸ hqueues) (hholds.named run)

end Hub

/-! ## One reader -/

/-- What is left of the replay. -/
def Phase.rest : Phase → List Event
  | .replaying rest _ => rest
  | _ => []

/-- Nothing is read from the queue any more, because the run has ended. -/
def Phase.Ending : Phase → Prop
  | .replaying _ terminal => terminal = true
  | .yielded event => event.isTerminal = true
  | .returned => True
  | .waiting | .disconnected => False

/-- What a reader still receives of what has been published. -/
def Subscriber.outstanding (subscriber : Subscriber) : List Event :=
  match subscriber.phase with
  | .replaying rest terminal => rest ++ if terminal then [] else subscriber.queue
  | .waiting => subscriber.queue
  | .yielded event => if event.isTerminal then [] else subscriber.queue
  | .returned | .disconnected => []

/-- What a reader is sent agrees with the events of its run. -/
structure Tracked (events : List Event) (subscriber : Subscriber) : Prop where
  since : subscriber.since ≤ events.length
  replay : subscriber.replay <:+ events.take subscriber.since
  queued : ∀ event ∈ subscriber.queue, event ∈ events
  last : ∀ event ∈ subscriber.queue.dropLast, event.isTerminal = false
  ended : subscriber.phase.Ending → Ends events
  going : ¬ subscriber.phase.Ending →
    ∀ event ∈ subscriber.received ++ subscriber.phase.rest, event.isTerminal = false

/-- The steps a reader can still make. -/
def Subscriber.ahead (subscriber : Subscriber) : ℕ :=
  2 * subscriber.queue.length +
    match subscriber.phase with
    | .replaying rest _ => rest.length + 2
    | .waiting => 0
    | .yielded _ => 1
    | .returned | .disconnected => 0

section

variable {events : List Event} {event : Event} {subscriber next : Subscriber}

/-- What one step of a reader leaves as it was. -/
structure Resumed (events : List Event) (subscriber next : Subscriber) : Prop where
  run : next.run = subscriber.run
  replay : next.replay = subscriber.replay
  since : next.since = subscriber.since
  total : next.received ++ next.outstanding = subscriber.received ++ subscriber.outstanding
  connected : next.phase ≠ .disconnected
  tracked : Tracked events next

theorem resume_some (htracked : Tracked events subscriber)
    (hresume : subscriber.resume = some next) : Resumed events subscriber next := by
  obtain ⟨run, replay, since, queue, phase, received⟩ := subscriber
  obtain ⟨hsince, hreplay, hqueued, hlast, hended, hgoing⟩ := htracked
  cases phase with
  | replaying rest terminal =>
    cases rest with
    | cons event rest =>
      cases hresume
      refine ⟨rfl, rfl, rfl, by simp [Subscriber.outstanding], by simp, ?_⟩
      refine ⟨hsince, hreplay, hqueued, hlast, hended, fun hopen other hother => ?_⟩
      exact hgoing hopen other (by simpa [Phase.rest] using hother)
    | nil =>
      cases terminal with
      | true =>
        cases hresume
        refine ⟨rfl, rfl, rfl, by simp [Subscriber.outstanding], by simp, ?_⟩
        exact ⟨hsince, hreplay, hqueued, hlast, fun _ => hended rfl,
          fun hopen => absurd trivial hopen⟩
      | false =>
        cases hresume
        refine ⟨rfl, rfl, rfl, by simp [Subscriber.outstanding], by simp, ?_⟩
        exact ⟨hsince, hreplay, hqueued, hlast, fun hending => hending.elim,
          fun _ => hgoing Bool.false_ne_true⟩
  | waiting =>
    cases queue with
    | nil => cases hresume
    | cons event rest =>
      cases hresume
      have hopen := hgoing id
      refine ⟨rfl, rfl, rfl, ?_, by simp, ?_⟩
      · -- Nothing stands behind a terminal event.
        cases hterminal : event.isTerminal with
        | false => simp [Subscriber.outstanding, hterminal]
        | true =>
          cases rest with
          | nil => simp [Subscriber.outstanding]
          | cons second rest =>
            have hfirst := hlast event List.mem_cons_self
            rw [hterminal] at hfirst
            cases hfirst
      · refine ⟨hsince, hreplay, fun other hother => ?_, fun other hother => ?_, ?_, ?_⟩
        · exact hqueued other (List.mem_cons_of_mem _ hother)
        · apply hlast other
          cases rest with
          | nil => cases hother
          | cons second rest => exact List.mem_cons_of_mem _ hother
        · exact fun hterminal => ⟨event, hqueued event List.mem_cons_self, hterminal⟩
        · intro hterminal other hother
          rcases List.mem_append.mp hother with hother | hother
          · rcases List.mem_append.mp hother with hother | hother
            · exact hopen other (List.mem_append_left _ hother)
            · rw [List.mem_singleton.mp hother]
              exact Bool.eq_false_iff.mpr hterminal
          · cases hother
  | yielded event =>
    cases hresume
    cases hterminal : event.isTerminal with
    | true =>
      refine ⟨rfl, rfl, rfl, by simp [Subscriber.outstanding, hterminal], by simp, ?_⟩
      exact ⟨hsince, hreplay, hqueued, hlast, fun _ => hended hterminal, by simp [Phase.Ending]⟩
    | false =>
      refine ⟨rfl, rfl, rfl, by simp [Subscriber.outstanding, hterminal], by simp, ?_⟩
      refine ⟨hsince, hreplay, hqueued, hlast, by simp [Phase.Ending], fun _ => ?_⟩
      simpa [hterminal, Phase.rest] using hgoing (by simp [Phase.Ending, hterminal])
  | returned => cases hresume
  | disconnected => cases hresume

theorem ahead_of_resume (hresume : subscriber.resume = some next) :
    next.ahead < subscriber.ahead := by
  obtain ⟨run, replay, since, queue, phase, received⟩ := subscriber
  cases phase with
  | replaying rest terminal =>
    cases rest with
    | cons event rest =>
      cases hresume
      simp [Subscriber.ahead]
    | nil => cases terminal <;> cases hresume <;> simp [Subscriber.ahead]
  | waiting =>
    cases queue with
    | nil => cases hresume
    | cons event rest =>
      cases hresume
      simp only [Subscriber.ahead, List.length_cons]
      omega
  | yielded event =>
    cases hresume
    cases event.isTerminal <;> simp [Subscriber.ahead]
  | returned => cases hresume
  | disconnected => cases hresume

/-- A reader that does nothing waits at its empty queue, or has gone. -/
theorem resume_none (hresume : subscriber.resume = none)
    (hconnected : subscriber.phase ≠ .disconnected) :
    subscriber.outstanding = [] ∧ (subscriber.phase = .waiting ∨ subscriber.phase = .returned) := by
  obtain ⟨run, replay, since, queue, phase, received⟩ := subscriber
  cases phase with
  | replaying rest terminal =>
    cases rest with
    | cons event rest => cases hresume
    | nil => cases terminal <;> cases hresume
  | waiting =>
    cases queue with
    | nil => exact ⟨rfl, Or.inl rfl⟩
    | cons event rest => cases hresume
  | yielded event => cases hresume
  | returned => exact ⟨rfl, Or.inr rfl⟩
  | disconnected => exact absurd rfl hconnected

theorem put_of_room (hroom : subscriber.queue.length < queueLimit) :
    subscriber.put event = { subscriber with queue := subscriber.queue ++ [event] } := if_pos hroom

theorem put_of_full (hfull : ¬ subscriber.queue.length < queueLimit) :
    subscriber.put event = subscriber := if_neg hfull

/-- A reader of a run that goes on gets the next event behind what is outstanding. -/
theorem outstanding_put (event : Event) (htracked : Tracked events subscriber) (hopen : ¬ Ends events)
    (hconnected : subscriber.phase ≠ .disconnected)
    (hroom : subscriber.queue.length < queueLimit) :
    (subscriber.put event).outstanding = subscriber.outstanding ++ [event] := by
  have hgoing : ¬ subscriber.phase.Ending := fun hending => hopen (htracked.ended hending)
  rw [put_of_room hroom]
  obtain ⟨run, replay, since, queue, phase, received⟩ := subscriber
  cases phase with
  | replaying rest terminal =>
    rw [Phase.Ending, Bool.not_eq_true] at hgoing
    simp [Subscriber.outstanding, hgoing]
  | waiting => rfl
  | yielded event =>
    rw [Phase.Ending, Bool.not_eq_true] at hgoing
    simp [Subscriber.outstanding, hgoing]
  | returned => exact absurd trivial hgoing
  | disconnected => exact absurd rfl hconnected

/-- The next event of the run keeps a reader tracked, whether it reaches the reader or not. -/
theorem Tracked.append (htracked : Tracked events subscriber) (event : Event) :
    Tracked (events ++ [event]) subscriber where
  since := by
    rw [List.length_append]
    exact Nat.le_add_right_of_le htracked.since
  replay := by
    rw [List.take_append_of_le_length htracked.since]
    exact htracked.replay
  queued other hother := List.mem_append_left _ (htracked.queued other hother)
  last := htracked.last
  ended hending := ends_append.mpr (Or.inl (htracked.ended hending))
  going := htracked.going

theorem Tracked.put (htracked : Tracked events subscriber) (hopen : ¬ Ends events) :
    Tracked (events ++ [event]) (subscriber.put event) := by
  by_cases hroom : subscriber.queue.length < queueLimit
  · rw [put_of_room hroom]
    obtain ⟨hsince, hreplay, hqueued, hlast, hended, hgoing⟩ :=
      htracked.append event
    refine ⟨hsince, hreplay, fun other hother => ?_, fun other hother => ?_, hended, hgoing⟩
    · rcases List.mem_append.mp hother with hother | hother
      · exact hqueued other hother
      · exact List.mem_append_right _ hother
    · rw [List.dropLast_concat] at hother
      exact Bool.eq_false_iff.mpr fun hterminal =>
        hopen ⟨other, htracked.queued other hother, hterminal⟩
  · rw [put_of_full hroom]
    exact htracked.append event

/-- A reader is sent the replay and then every later event, the last of which ends the run. -/
structure Complete (events : List Event) (subscriber : Subscriber) : Prop where
  total : subscriber.received ++ subscriber.outstanding =
    subscriber.replay ++ events.drop subscriber.since
  final : Ends events → ∃ event ∈ (subscriber.replay ++ events.drop subscriber.since).getLast?,
    event.isTerminal = true

theorem Complete.put (hcomplete : Complete events subscriber) (htracked : Tracked events subscriber)
    (hopen : ¬ Ends events) (hconnected : subscriber.phase ≠ .disconnected)
    (hroom : subscriber.queue.length < queueLimit) :
    Complete (events ++ [event]) (subscriber.put event) := by
  have houtstanding := outstanding_put event htracked hopen hconnected hroom
  rw [put_of_room hroom] at houtstanding ⊢
  have hlater : (events ++ [event]).drop subscriber.since =
      events.drop subscriber.since ++ [event] := List.drop_append_of_le_length htracked.since
  refine ⟨?_, fun hended => ⟨event, ?_, (ends_append.mp hended).resolve_left hopen⟩⟩
  · rw [houtstanding, hlater, ← List.append_assoc, hcomplete.total, List.append_assoc]
  · rw [hlater, ← List.append_assoc, List.getLast?_concat]
    rfl

/-- An event that is dropped is missing. -/
theorem not_complete_of_full (htracked : Tracked events subscriber)
    (hcomplete : Complete events subscriber) (hfull : ¬ subscriber.queue.length < queueLimit) :
    ¬ Complete (events ++ [event]) (subscriber.put event) := by
  intro hafter
  have htotal := hafter.total
  rw [put_of_full hfull, List.drop_append_of_le_length htracked.since, ← List.append_assoc,
    ← hcomplete.total] at htotal
  exact List.cons_ne_nil event [] (List.self_eq_append_right.mp htotal)

end

/-! ## All readers -/

theorem published_append (state : State) (run : String) (event : Event) :
    State.published { state with history := state.history ++ [(run, event)] } =
      Hub.after state.published run event := by
  funext other
  unfold State.published Hub.after
  by_cases hother : other = run
  · simp [hother]
  · simp [hother, Ne.symm hother]

/-- What holds of the hub, its queues and its readers in every run. -/
structure Consistent (state : State) : Prop where
  hub : state.hub.Holds state.published
  listeners : ∀ run index, index ∈ state.hub.listeners run ↔
    ∃ subscriber : Subscriber, state.subscribers[index]? = some subscriber ∧
      subscriber.run = run ∧ ¬ subscriber.phase.Gone
  closing : ∀ run, Ends (state.published run) →
    ∃ event ∈ (state.published run).getLast?, event.isTerminal = true
  tracked : ∀ (index : ℕ) (subscriber : Subscriber),
    state.subscribers[index]? = some subscriber → subscriber.phase ≠ .disconnected →
      Tracked (state.published subscriber.run) subscriber

theorem consistent_init : Consistent machine.init where
  hub := ⟨fun _ hempty => (by cases hempty), fun _ hmarked => absurd hmarked (Finset.notMem_empty _),
    fun _ _ => List.drop_nil.symm, fun _ _ _ => rfl⟩
  listeners run index := by simp [machine, Hub.listeners]
  closing run hended := by
    obtain ⟨event, hevent, -⟩ := hended
    cases hevent
  tracked index subscriber hget := by cases hget

variable {state next : State}

theorem getElem?_deliver (listeners : Finset ℕ) (event : Event) (subscribers : List Subscriber)
    (index : ℕ) :
    (deliver listeners event subscribers)[index]? = (subscribers[index]?).map fun subscriber =>
      if index ∈ listeners then subscriber.put event else subscriber := by
  rw [deliver, List.getElem?_mapIdx]

@[simp]
theorem run_put (subscriber : Subscriber) (event : Event) :
    (subscriber.put event).run = subscriber.run := by
  unfold Subscriber.put
  split_ifs <;> rfl

@[simp]
theorem phase_put (subscriber : Subscriber) (event : Event) :
    (subscriber.put event).phase = subscriber.phase := by
  unfold Subscriber.put
  split_ifs <;> rfl

/-- **What a step does.** -/
theorem step_cases {action : Action} (hstep : step state action = some next) :
    (∃ run event, action = .publish run event ∧ ¬ Ends (state.published run) ∧
      next = state.publish run event) ∨
    (∃ run, action = .subscribe run ∧ next = state.subscribe run) ∨
    ∃ (index : ℕ) (subscriber moved : Subscriber), state.subscribers[index]? = some subscriber ∧
      next = state.replace index moved ∧ ¬ subscriber.phase.Gone ∧
      (action = .read index ∧ subscriber.resume = some moved ∨
        action = .disconnect index ∧ moved = { subscriber with phase := .disconnected }) := by
  cases action with
  | publish run event =>
    rw [step] at hstep
    split_ifs at hstep with hended
    exact Or.inl ⟨run, event, rfl, hended, (Option.some.inj hstep).symm⟩
  | subscribe run => exact Or.inr (Or.inl ⟨run, rfl, (Option.some.inj hstep).symm⟩)
  | read index =>
    obtain ⟨subscriber, hget, hresume⟩ := Option.bind_eq_some_iff.mp hstep
    obtain ⟨moved, hresume, hnext⟩ := Option.map_eq_some_iff.mp hresume
    refine Or.inr (Or.inr ⟨index, subscriber, moved, hget, hnext.symm, ?_, Or.inl ⟨rfl, hresume⟩⟩)
    rintro (hphase | hphase) <;> simp [Subscriber.resume, hphase] at hresume
  | disconnect index =>
    obtain ⟨subscriber, hget, hleave⟩ := Option.bind_eq_some_iff.mp hstep
    split_ifs at hleave with hgone
    exact Or.inr (Or.inr ⟨index, subscriber, _, hget, (Option.some.inj hleave).symm, hgone,
      Or.inr ⟨rfl, rfl⟩⟩)

theorem Consistent.publish (hconsistent : Consistent state) {run : String} {event : Event}
    (hopen : ¬ Ends (state.published run)) : Consistent (state.publish run event) := by
  have hpublished : (state.publish run event).published =
      Hub.after state.published run event := published_append state run event
  refine ⟨?_, fun other index => ?_, fun other hended => ?_, fun index subscriber hget hconnected => ?_⟩
  · rw [hpublished]
    exact hconsistent.hub.publish hopen
  · rw [State.publish, Hub.listeners_publish, hconsistent.listeners]
    simp only [getElem?_deliver, Option.map_eq_some_iff]
    apply Iff.intro
    · rintro ⟨subscriber, hget, hrun, hgone⟩
      refine ⟨_, ⟨subscriber, hget, rfl⟩, ?_, ?_⟩ <;> split_ifs <;> simpa
    · rintro ⟨_, ⟨subscriber, hget, rfl⟩, hrun, hgone⟩
      refine ⟨subscriber, hget, ?_, ?_⟩
      · split_ifs at hrun <;> simpa using hrun
      · split_ifs at hgone <;> simpa using hgone
  · rw [hpublished] at hended ⊢
    unfold Hub.after at hended ⊢
    split_ifs at hended ⊢ with hother
    · rw [hother] at hended ⊢
      exact ⟨event, by simp, (ends_append.mp hended).resolve_left hopen⟩
    · exact hconsistent.closing other hended
  · rw [hpublished]
    rw [State.publish, getElem?_deliver] at hget
    obtain ⟨before, hbefore, rfl⟩ := Option.map_eq_some_iff.mp hget
    have hbeforeConnected : before.phase ≠ .disconnected := by
      split_ifs at hconnected <;> simpa using hconnected
    have htracked := hconsistent.tracked index before hbefore hbeforeConnected
    by_cases hrun : before.run = run
    · have hgoing : ¬ before.phase.Gone := by
        rintro (hreturned | hdisconnected)
        · exact hopen (hrun ▸ htracked.ended (by rw [hreturned]; trivial))
        · exact hbeforeConnected hdisconnected
      have hlistens : index ∈ state.hub.listeners run :=
        (hconsistent.listeners run index).mpr ⟨before, hbefore, hrun, hgoing⟩
      rw [if_pos hlistens, run_put, Hub.after, if_pos hrun]
      exact htracked.put (hrun ▸ hopen)
    · have hdeaf : index ∉ state.hub.listeners run := fun hlistens => by
        obtain ⟨other, hother, hotherRun, -⟩ := (hconsistent.listeners run index).mp hlistens
        rw [hbefore] at hother
        exact hrun (Option.some.inj hother ▸ hotherRun)
      rw [if_neg hdeaf, Hub.after, if_neg hrun]
      exact htracked

/-- The last event of a buffer is the last of its run. -/
theorem getLast?_trim (events : List Event) : (Hub.trim events).getLast? = events.getLast? := by
  have hpositive := Hub.bufferLimit_pos
  rw [Hub.trim, List.getLast?_drop]
  split_ifs with hshort
  · have hempty : events = [] := List.eq_nil_of_length_eq_zero (by omega)
    rw [hempty, List.getLast?_nil]
  · rfl

/-- A newcomer is tracked, and outside a run that the hub has forgotten it is sent the end. -/
theorem tracked_newcomer (hconsistent : Consistent state) (run : String) :
    Tracked (state.published run) (state.newcomer run) := by
  refine ⟨le_rfl, ?_, fun _ hqueued => (by cases hqueued), fun _ hlast => (by cases hlast),
    fun hending => ?_, fun hgoing event hevent => ?_⟩
  · show state.hub.buffer run <:+ (state.published run).take (state.published run).length
    rw [List.take_length]
    by_cases hmarked : Ends (state.published run) → run ∈ state.hub.terminal
    · rw [hconsistent.hub.buffered run hmarked]
      exact Hub.trim_suffix _
    · obtain ⟨hended, hunmarked⟩ := Classical.not_imp.mp hmarked
      rw [Hub.buffer, hconsistent.hub.dropped run hended hunmarked]
      exact List.nil_suffix
  · exact (hconsistent.hub.marked run (of_decide_eq_true hending)).1
  · have hunmarked : run ∉ state.hub.terminal := fun hmarked => hgoing (decide_eq_true hmarked)
    apply Bool.eq_false_iff.mpr
    intro hterminal
    change event ∈ [] ++ state.hub.buffer run at hevent
    rw [List.nil_append] at hevent
    by_cases hended : Ends (state.published run)
    · rw [Hub.buffer, hconsistent.hub.dropped run hended hunmarked] at hevent
      cases hevent
    · rw [hconsistent.hub.buffered run fun hends => absurd hends hended] at hevent
      have hpublished := (Hub.trim_suffix (state.published run)).subset hevent
      exact hended ⟨event, hpublished, hterminal⟩

theorem complete_newcomer_iff (hconsistent : Consistent state) (run : String) :
    Complete (state.published run) (state.newcomer run) ↔
      (Ends (state.published run) → run ∈ state.hub.terminal) := by
  have hlater : (state.published run).drop (state.newcomer run).since = [] := List.drop_length
  apply Iff.intro
  · intro hcomplete hended
    by_contra hunmarked
    obtain ⟨event, hevent, -⟩ := hcomplete.final hended
    rw [hlater, List.append_nil, State.newcomer, Hub.buffer,
      hconsistent.hub.dropped run hended hunmarked] at hevent
    cases hevent
  · intro hmarked
    refine ⟨?_, fun hended => ?_⟩
    · rw [hlater, List.append_nil]
      show [] ++ (state.hub.buffer run ++ if decide (run ∈ state.hub.terminal) then [] else []) = _
      rw [ite_self, List.append_nil, List.nil_append]
      rfl
    · rw [hlater, List.append_nil, State.newcomer, hconsistent.hub.buffered run hmarked,
        getLast?_trim]
      exact hconsistent.closing run hended

theorem Consistent.subscribe (hconsistent : Consistent state) (run : String) :
    Consistent (state.subscribe run) := by
  refine ⟨hconsistent.hub.subscribe, fun other index => ?_, hconsistent.closing,
    fun index subscriber hget hconnected => ?_⟩
  · have hgrown : index ∈ (state.subscribe run).hub.listeners other ↔
        (other = run ∧ index = state.subscribers.length) ∨ index ∈ state.hub.listeners other := by
      rw [State.subscribe, Hub.listeners_subscribe]
      split_ifs with hother
      · simp [hother]
      · simp [hother]
    rw [hgrown, hconsistent.listeners]
    simp only [State.subscribe, List.getElem?_append, List.getElem?_singleton]
    apply Iff.intro
    · rintro (⟨rfl, rfl⟩ | ⟨subscriber, hget, hrun, hgone⟩)
      · exact ⟨state.newcomer other, by simp, rfl, by simp [State.newcomer, Phase.Gone]⟩
      · have hlength := (List.getElem?_eq_some_iff.mp hget).1
        exact ⟨subscriber, by rw [if_pos hlength, hget], hrun, hgone⟩
    · rintro ⟨subscriber, hget, hrun, hgone⟩
      split_ifs at hget with hlength hlast
      · exact Or.inr ⟨subscriber, hget, hrun, hgone⟩
      · rw [← Option.some.inj hget] at hrun
        exact Or.inl ⟨hrun.symm, by omega⟩
  · simp only [State.subscribe, List.getElem?_append, List.getElem?_singleton] at hget
    split_ifs at hget with hlength hlast
    · exact hconsistent.tracked index subscriber hget hconnected
    · rw [← Option.some.inj hget]
      exact tracked_newcomer hconsistent run

theorem Consistent.replace (hconsistent : Consistent state) {index : ℕ}
    {subscriber moved : Subscriber} (hget : state.subscribers[index]? = some subscriber)
    (hgone : ¬ subscriber.phase.Gone) (hrun : moved.run = subscriber.run)
    (htracked : moved.phase ≠ .disconnected → Tracked (state.published moved.run) moved) :
    Consistent (state.replace index moved) := by
  have hlength := (List.getElem?_eq_some_iff.mp hget).1
  have hset (other : ℕ) : (state.replace index moved).subscribers[other]? =
      if index = other then some moved else state.subscribers[other]? := by
    rw [State.replace, List.getElem?_set, if_pos hlength]
  refine ⟨?_, fun run other => ?_, hconsistent.closing, fun other reader hother hconnected => ?_⟩
  · unfold State.replace
    split_ifs
    · exact hconsistent.hub.unsubscribe
    · exact hconsistent.hub
  · have hlisteners : other ∈ (state.replace index moved).hub.listeners run ↔
        other ∈ state.hub.listeners run ∧ ¬ (moved.phase.Gone ∧ run = moved.run ∧ other = index) := by
      unfold State.replace
      by_cases hleaves : moved.phase.Gone
      · rw [if_pos hleaves, Hub.listeners_unsubscribe]
        split_ifs with hown
        · rw [Finset.mem_erase]
          simp [hleaves, hown, and_comm]
        · simp [hown]
      · simp [hleaves]
    rw [hlisteners, hconsistent.listeners, hset]
    by_cases hother : index = other
    · rw [if_pos hother, ← hother, hget]
      simp only [Option.some.injEq, exists_eq_left']
      rw [← hrun, eq_comm (a := run), and_true, not_and]
      apply Iff.intro
      · intro ⟨⟨hown, _⟩, hleaves⟩
        exact ⟨hown, fun hmoved => hleaves hmoved hown⟩
      · intro ⟨hown, hstays⟩
        exact ⟨⟨hown, hgone⟩, fun hmoved _ => hstays hmoved⟩
    · have hothers : other ≠ index := Ne.symm hother
      simp [hother, hothers]
  · rw [hset] at hother
    split_ifs at hother
    · rw [← Option.some.inj hother] at hconnected ⊢
      exact htracked hconnected
    · exact hconsistent.tracked other reader hother hconnected

theorem consistent_step {action : Action} (hconsistent : Consistent state)
    (hstep : step state action = some next) : Consistent next := by
  rcases step_cases hstep with ⟨run, event, -, hopen, rfl⟩ | ⟨run, -, rfl⟩ |
    ⟨index, subscriber, moved, hget, rfl, hgone, hmoved⟩
  · exact hconsistent.publish hopen
  · exact hconsistent.subscribe run
  · have hconnected : subscriber.phase ≠ .disconnected := fun hphase => hgone (Or.inr hphase)
    rcases hmoved with ⟨-, hresume⟩ | ⟨-, rfl⟩
    · have hresumed := resume_some (hconsistent.tracked index subscriber hget hconnected) hresume
      exact hconsistent.replace hget hgone hresumed.run fun _ => hresumed.run ▸ hresumed.tracked
    · exact hconsistent.replace hget hgone rfl fun hconnected => absurd rfl hconnected

/-! ## The guarantee -/

/-- The client of a subscriber reads on until it has to wait or the stream is over. -/
structure ReadsOn (state : State) (index : ℕ) (final : State) (reader : Subscriber) : Prop where
  reads : ∃ count, machine.runFrom state (List.replicate count (.read index)) = some final
  get : final.subscribers[index]? = some reader
  stops : step final (.read index) = none

/-- A reader receives its replay, which is the end of what was published before, and every
later event once and in order; when the run has ended it receives the terminal event and
returns. -/
structure Served (state : State) (index : ℕ) (subscriber : Subscriber) : Prop where
  replay : subscriber.replay <:+ (state.published subscriber.run).take subscriber.since
  reads : ∃ final reader, ReadsOn state index final reader
  receives : ∀ final reader, ReadsOn state index final reader →
    reader.received = subscriber.replay ++
      (state.published subscriber.run).drop subscriber.since ∧
    (Ends (state.published subscriber.run) → reader.phase = .returned ∧
      ∃ event ∈ reader.received.getLast?, event.isTerminal = true)

/-- The hub keeps nothing of a run. -/
structure Forgotten (hub : Hub) (run : String) : Prop where
  buffer : hub.buffers.get run = none
  queues : hub.queues.get run = none
  terminal : run ∉ hub.terminal

/-- Every reader that keeps reading is served, and a run that has ended is forgotten once all
its readers have gone. -/
structure Delivered (state : State) : Prop where
  served : ∀ (index : ℕ) (subscriber : Subscriber),
    state.subscribers[index]? = some subscriber → subscriber.phase ≠ .disconnected →
      Served state index subscriber
  forgotten : ∀ run, Ends (state.published run) →
    (∀ subscriber ∈ state.subscribers, subscriber.run = run → subscriber.phase.Gone) →
      Forgotten state.hub run

/-- The condition on a step: nothing is published over a full queue, and who comes after the
end of a run finds it still in the hub. -/
def Kept (state : State) : Action → Prop
  | .publish run _ => ∀ (index : ℕ) (subscriber : Subscriber),
    state.subscribers[index]? = some subscriber → index ∈ state.hub.listeners run →
      subscriber.queue.length < queueLimit
  | .subscribe run => Ends (state.published run) → run ∈ state.hub.terminal
  | .read _ | .disconnect _ => True

theorem forgotten_of_gone (hconsistent : Consistent state) {run : String}
    (hended : Ends (state.published run))
    (hgone : ∀ subscriber ∈ state.subscribers, subscriber.run = run → subscriber.phase.Gone) :
    Forgotten state.hub run := by
  have halone : state.hub.listeners run = ∅ := by
    apply Finset.eq_empty_of_forall_notMem
    intro index hlistens
    obtain ⟨subscriber, hget, hrun, hgoing⟩ := (hconsistent.listeners run index).mp hlistens
    exact hgoing (hgone subscriber (List.mem_of_getElem? hget) hrun)
  obtain ⟨hbuffer, hqueues, hterminal⟩ := hconsistent.hub.forgotten hended halone
  exact ⟨hbuffer, hqueues, hterminal⟩

theorem step_read {index : ℕ} {subscriber : Subscriber}
    (hget : state.subscribers[index]? = some subscriber) :
    step state (.read index) = subscriber.resume.map (state.replace index) := by
  rw [step, hget, Option.bind_some]

theorem getElem?_replace {index : ℕ} {subscriber moved : Subscriber}
    (hget : state.subscribers[index]? = some subscriber) :
    (state.replace index moved).subscribers[index]? = some moved := by
  have hlength := (List.getElem?_eq_some_iff.mp hget).1
  rw [State.replace, List.getElem?_set_self hlength]

/-- However long a reader reads, what it has and what is outstanding stay the same together. -/
theorem resumed_of_reads {count index : ℕ} {subscriber : Subscriber}
    (hconsistent : Consistent state) (hget : state.subscribers[index]? = some subscriber)
    (hconnected : subscriber.phase ≠ .disconnected)
    (hrun : machine.runFrom state (List.replicate count (.read index)) = some next) :
    ∃ reader, next.subscribers[index]? = some reader ∧
      Resumed (state.published subscriber.run) subscriber reader := by
  induction count generalizing state subscriber with
  | zero =>
    cases hrun
    exact ⟨subscriber, hget, rfl, rfl, rfl, rfl, hconnected,
      hconsistent.tracked index subscriber hget hconnected⟩
  | succ count ih =>
    obtain ⟨middle, hstep, hrest⟩ := Option.bind_eq_some_iff.mp hrun
    change step state (.read index) = some middle at hstep
    have hconsistentMiddle := consistent_step hconsistent hstep
    have hmoves : subscriber.resume.map (state.replace index) = some middle :=
      step_read hget ▸ hstep
    obtain ⟨moved, hresume, rfl⟩ := Option.map_eq_some_iff.mp hmoves
    have hmoved := resume_some (hconsistent.tracked index subscriber hget hconnected) hresume
    obtain ⟨reader, hreader, hresumed⟩ :=
      ih hconsistentMiddle (getElem?_replace hget) hmoved.connected hrest
    rw [hmoved.run] at hresumed
    exact ⟨reader, hreader, hresumed.run.trans hmoved.run, hresumed.replay.trans hmoved.replay,
      hresumed.since.trans hmoved.since, hresumed.total.trans hmoved.total, hresumed.connected,
      hresumed.tracked⟩

/-- Reading comes to an end, since every step of a reader leaves it fewer. -/
theorem exists_readsOn (hconsistent : Consistent state) {index : ℕ} {subscriber : Subscriber}
    (hget : state.subscribers[index]? = some subscriber)
    (hconnected : subscriber.phase ≠ .disconnected) :
    ∃ final reader, ReadsOn state index final reader := by
  induction hahead : subscriber.ahead using Nat.strong_induction_on
    generalizing state subscriber with
  | h ahead ih =>
    cases hresume : subscriber.resume with
    | none =>
      refine ⟨state, subscriber, ⟨0, rfl⟩, hget, ?_⟩
      rw [step_read hget, hresume, Option.map_none]
    | some moved =>
      have hstep : step state (.read index) = some (state.replace index moved) := by
        rw [step_read hget, hresume, Option.map_some]
      have hmoved := resume_some (hconsistent.tracked index subscriber hget hconnected) hresume
      obtain ⟨final, reader, ⟨count, hreads⟩, hreader, hstops⟩ :=
        ih moved.ahead (hahead ▸ ahead_of_resume hresume) (consistent_step hconsistent hstep)
          (getElem?_replace hget) hmoved.connected rfl
      refine ⟨final, reader, ⟨count + 1, ?_⟩, hreader, hstops⟩
      rw [List.replicate_succ, Machine.runFrom]
      show (step state (.read index)).bind _ = some final
      rw [hstep]
      exact hreads

theorem served_iff_complete (hconsistent : Consistent state) {index : ℕ}
    {subscriber : Subscriber} (hget : state.subscribers[index]? = some subscriber)
    (hconnected : subscriber.phase ≠ .disconnected) :
    Served state index subscriber ↔ Complete (state.published subscriber.run) subscriber := by
  have hends (final : State) (reader : Subscriber) (hreads : ReadsOn state index final reader) :
      Resumed (state.published subscriber.run) subscriber reader ∧
        reader.received = subscriber.received ++ subscriber.outstanding ∧
        (reader.phase = .waiting ∨ reader.phase = .returned) := by
    obtain ⟨⟨count, hrun⟩, hreader, hstops⟩ := hreads
    obtain ⟨other, hother, hresumed⟩ := resumed_of_reads hconsistent hget hconnected hrun
    rw [hreader] at hother
    rw [← Option.some.inj hother] at hresumed
    rw [step_read hreader, Option.map_eq_none_iff] at hstops
    obtain ⟨houtstanding, hphase⟩ := resume_none hstops hresumed.connected
    refine ⟨hresumed, ?_, hphase⟩
    rw [← hresumed.total, houtstanding, List.append_nil]
  apply Iff.intro
  · intro hserved
    obtain ⟨final, reader, hreads⟩ := hserved.reads
    obtain ⟨-, hreceived, -⟩ := hends final reader hreads
    obtain ⟨htotal, hfinal⟩ := hserved.receives final reader hreads
    refine ⟨hreceived.symm.trans htotal, fun hended => ?_⟩
    rw [← htotal]
    exact (hfinal hended).2
  · intro hcomplete
    refine ⟨(hconsistent.tracked index subscriber hget hconnected).replay,
      exists_readsOn hconsistent hget hconnected, fun final reader hreads => ?_⟩
    obtain ⟨hresumed, hreceived, hphase⟩ := hends final reader hreads
    have htotal := hreceived.trans hcomplete.total
    refine ⟨htotal, fun hended => ?_⟩
    obtain ⟨event, hevent, hterminal⟩ := hcomplete.final hended
    rw [← htotal] at hevent
    refine ⟨hphase.resolve_left fun hwaiting => ?_, event, hevent, hterminal⟩
    -- A reader that waits has received no terminal event.
    have hgoing := hresumed.tracked.going (by rw [hwaiting]; exact id) event
      (List.mem_append_left _ (List.mem_of_getLast? hevent))
    rw [hterminal] at hgoing
    cases hgoing

/-- All readers are sent what they should be. -/
def AllComplete (state : State) : Prop :=
  ∀ (index : ℕ) (subscriber : Subscriber), state.subscribers[index]? = some subscriber →
    subscriber.phase ≠ .disconnected → Complete (state.published subscriber.run) subscriber

theorem delivered_iff (hconsistent : Consistent state) : Delivered state ↔ AllComplete state := by
  apply Iff.intro
  · intro hdelivered index subscriber hget hconnected
    exact (served_iff_complete hconsistent hget hconnected).mp
      (hdelivered.served index subscriber hget hconnected)
  · intro hcomplete
    refine ⟨fun index subscriber hget hconnected => ?_, fun run hended hgone =>
      forgotten_of_gone hconsistent hended hgone⟩
    exact (served_iff_complete hconsistent hget hconnected).mpr
      (hcomplete index subscriber hget hconnected)

theorem allComplete_publish_iff (hconsistent : Consistent state) (hcomplete : AllComplete state)
    {run : String} {event : Event} (hopen : ¬ Ends (state.published run)) :
    AllComplete (state.publish run event) ↔ Kept state (.publish run event) := by
  have hpublished (other : String) : (state.publish run event).published other =
      Hub.after state.published run event other :=
    congrFun (published_append state run event) other
  have hget (index : ℕ) := getElem?_deliver (state.hub.listeners run) event state.subscribers index
  apply Iff.intro
  · intro hafter index subscriber hsubscriber hlistens
    obtain ⟨other, hother, hrun, hgone⟩ := (hconsistent.listeners run index).mp hlistens
    rw [hsubscriber] at hother
    rw [← Option.some.inj hother] at hrun hgone
    have hconnected : subscriber.phase ≠ .disconnected := fun hphase => hgone (Or.inr hphase)
    have hindex := hget index
    rw [hsubscriber, Option.map_some, if_pos hlistens] at hindex
    have hput := hafter index _ hindex (by rwa [phase_put])
    rw [run_put, hpublished, Hub.after, if_pos hrun] at hput
    by_contra hfull
    exact not_complete_of_full (hconsistent.tracked index subscriber hsubscriber hconnected)
      (hcomplete index subscriber hsubscriber hconnected) hfull hput
  · intro hroom index subscriber hsubscriber hconnected
    rw [State.publish, hget] at hsubscriber
    obtain ⟨before, hbefore, rfl⟩ := Option.map_eq_some_iff.mp hsubscriber
    by_cases hlistens : index ∈ state.hub.listeners run
    · obtain ⟨other, hother, hrun, -⟩ := (hconsistent.listeners run index).mp hlistens
      rw [hbefore] at hother
      rw [← Option.some.inj hother] at hrun
      rw [if_pos hlistens, phase_put] at hconnected
      rw [if_pos hlistens, run_put, hpublished, Hub.after, if_pos hrun]
      exact (hcomplete index before hbefore hconnected).put
        (hconsistent.tracked index before hbefore hconnected) (hrun ▸ hopen) hconnected
        (hroom index before hbefore hlistens)
    · rw [if_neg hlistens] at hconnected
      rw [if_neg hlistens, hpublished]
      have hrun : before.run ≠ run := fun hrun => by
        have htracked := hconsistent.tracked index before hbefore hconnected
        refine hlistens ((hconsistent.listeners run index).mpr ⟨before, hbefore, hrun, ?_⟩)
        rintro (hreturned | hdisconnected)
        · exact hopen (hrun ▸ htracked.ended (by rw [hreturned]; trivial))
        · exact hconnected hdisconnected
      rw [Hub.after, if_neg hrun]
      exact hcomplete index before hbefore hconnected

theorem allComplete_subscribe_iff (hconsistent : Consistent state) (hcomplete : AllComplete state)
    (run : String) : AllComplete (state.subscribe run) ↔ Kept state (.subscribe run) := by
  show _ ↔ (Ends (state.published run) → run ∈ state.hub.terminal)
  rw [← complete_newcomer_iff hconsistent run]
  have hget (index : ℕ) : (state.subscribe run).subscribers[index]? =
      if index < state.subscribers.length then state.subscribers[index]?
      else if index - state.subscribers.length = 0 then some (state.newcomer run) else none := by
    rw [State.subscribe, List.getElem?_append, List.getElem?_singleton]
  apply Iff.intro
  · intro hafter
    refine hafter state.subscribers.length (state.newcomer run) ?_ Phase.noConfusion
    rw [hget, if_neg (lt_irrefl _), if_pos (Nat.sub_self _)]
  · intro hnewcomer index subscriber hsubscriber hconnected
    rw [hget] at hsubscriber
    split_ifs at hsubscriber
    · exact hcomplete index subscriber hsubscriber hconnected
    · rw [← Option.some.inj hsubscriber]
      exact hnewcomer

theorem AllComplete.replace (hcomplete : AllComplete state) {index : ℕ}
    {subscriber moved : Subscriber} (hget : state.subscribers[index]? = some subscriber)
    (hmoved : moved.phase ≠ .disconnected → Complete (state.published moved.run) moved) :
    AllComplete (state.replace index moved) := by
  intro other reader hother hconnected
  by_cases hindex : index = other
  · rw [← hindex, getElem?_replace hget] at hother
    rw [← Option.some.inj hother] at hconnected ⊢
    exact hmoved hconnected
  · rw [State.replace, List.getElem?_set_ne hindex] at hother
    exact hcomplete other reader hother hconnected

/-- **The step lemma.** A step keeps all readers served exactly when it meets the condition. -/
theorem allComplete_step_iff {action : Action} (hconsistent : Consistent state)
    (hcomplete : AllComplete state) (hstep : step state action = some next) :
    AllComplete next ↔ Kept state action := by
  rcases step_cases hstep with ⟨run, event, rfl, hopen, rfl⟩ | ⟨run, rfl, rfl⟩ |
    ⟨index, subscriber, moved, hget, rfl, hgone, hmoved⟩
  · exact allComplete_publish_iff hconsistent hcomplete hopen
  · exact allComplete_subscribe_iff hconsistent hcomplete run
  · have hconnected : subscriber.phase ≠ .disconnected := fun hphase => hgone (Or.inr hphase)
    rcases hmoved with ⟨rfl, hresume⟩ | ⟨rfl, rfl⟩
    · refine iff_of_true (hcomplete.replace hget fun _ => ?_) trivial
      have hresumed := resume_some (hconsistent.tracked index subscriber hget hconnected) hresume
      obtain ⟨htotal, hfinal⟩ := hcomplete index subscriber hget hconnected
      rw [hresumed.run]
      refine ⟨?_, ?_⟩
      · rw [hresumed.total, hresumed.replay, hresumed.since]
        exact htotal
      · rw [hresumed.replay, hresumed.since]
        exact hfinal
    · exact iff_of_true (hcomplete.replace hget fun hconnected => absurd rfl hconnected) trivial

/-- The runs in which live logs are delivered are those in which nothing is published over a
full queue and nobody comes after the hub has forgotten the run. -/
theorem path_delivered_iff (actions : List Action) (state : State) :
    machine.Path (machine.LeadsTo Delivered) actions state ↔ machine.Path Kept actions state := by
  apply Machine.path_congr (P := fun state => Consistent state ∧ AllComplete state)
  · exact ⟨consistent_init, fun index subscriber hget => (by cases hget)⟩
  · intro source action target hsource hdelivers hstep
    have hconsistent := consistent_step hsource.1 hstep
    exact ⟨hconsistent, (delivered_iff hconsistent).mp (hdelivers target hstep)⟩
  · intro source action target hsource hstep
    rw [← allComplete_step_iff hsource.1 hsource.2 hstep,
      ← delivered_iff (consistent_step hsource.1 hstep)]
    apply Iff.intro
    · exact fun hdelivers => hdelivers target hstep
    · intro hdelivered other hother
      rw [hstep] at hother
      exact Option.some.inj hother ▸ hdelivered

/-- A run ends unobserved, and the next reader waits for an event that does not come. -/
theorem not_delivered_of_late_reader :
    ¬ ∀ actions state, machine.Path Machine.anyStep actions state → Delivered state := by
  intro hclaim
  let events : List (String × Event) :=
    [("run", .started "dbt run"), ("run", .completed 0 none)]
  let reader : Subscriber := ⟨"run", [], 2, [], .replaying [] false, []⟩
  let before : State := ⟨⟨[], [("run", {0})], ∅⟩, [reader], events⟩
  let after : State :=
    ⟨⟨[], [("run", {0})], ∅⟩, [{ reader with phase := .waiting }], events⟩
  have hrun : machine.runFrom machine.init
      [.publish "run" (.started "dbt run"), .publish "run" (.completed 0 none),
        .subscribe "run"] = some before := rfl
  have hserved := (hclaim _ before (Machine.path_of_runFrom hrun)).served 0 reader rfl
    Phase.noConfusion
  have hreturned := (hserved.receives after _ ⟨⟨1, rfl⟩, rfl, rfl⟩).2 (by decide)
  cases hreturned.1

end DbtCraft.Routers.LogHub

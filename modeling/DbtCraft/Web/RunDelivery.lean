/-
# Run output across navigation

Every message of the current command is to reach a mounted component once and in order: at
once while one is mounted, at the next mount otherwise. A component that was mounted before
the project had a stream is not taken off the listeners when it is unmounted, and a command
that waits for the text of an error, or has a chunk in hand, still speaks after it has been
replaced. Along every run without these steps nothing is lost.
-/

import DbtCraft.Web.RunStream
import Mathlib.Data.List.Nodup

namespace DbtCraft.Web.RunStream

open DbtCraft.Math

variable {state next : State} {event : Event} {events : List Event} {deliveries added : List Delivery}
  {stream arrived message id : ℕ} {background : List ℕ} {component : Component} {value : Stream}

/-! ## The guarantee -/

/-- So many messages have arrived unread after a message that it was given up. -/
def Superseded (deliveries : List Delivery) (stream arrived message : ℕ) : Prop :=
  message + backgroundLimit < arrived ∧
    ∀ later, message < later → later ≤ message + backgroundLimit →
      ∀ delivery ∈ deliveries, delivery.stream = stream → delivery.message = later →
        delivery.live = false

/-- One component receives the messages of a stream in their order. -/
def InOrder (first second : Delivery) : Prop :=
  first.listener = second.listener → first.stream = second.stream → first.message < second.message

/-- A message is replayed once, and only if nobody has received it. -/
def Once (first second : Delivery) : Prop :=
  first.stream = second.stream → first.message = second.message →
    first.live = true ∧ second.live = true

structure Kept (state : State) : Prop where
  toMounted : ∀ delivery ∈ state.deliveries, delivery.mounted = true
  ofCurrent : ∀ delivery ∈ state.deliveries, delivery.current = true
  inOrder : state.deliveries.Pairwise InOrder
  once : state.deliveries.Pairwise Once
  live : ∀ stream, stream + 1 = state.sent → state.mounted ≠ [] →
    (state.streams stream).backgroundMessages = []
  complete : ∀ stream, stream + 1 = state.sent → ∀ message < (state.streams stream).arrived,
    (∃ delivery ∈ state.deliveries, delivery.stream = stream ∧ delivery.message = message) ∨
      message ∈ (state.streams stream).backgroundMessages ∨
        Superseded state.deliveries stream (state.streams stream).arrived message

/-- A stream in this phase says nothing more once it is aborted. -/
def Phase.Quiet : Phase → Prop
  | .fetching | .answered .ok | .reading | .finished => True
  | .session | .answered .refused | .answered .noBody | .errorBody | .holding _ => False

instance : (phase : Phase) → Decidable phase.Quiet
  | .fetching | .answered .ok | .reading | .finished => isTrue trivial
  | .session | .answered .refused | .answered .noBody | .errorBody | .holding _ => isFalse fun hquiet => hquiet

/-- If a component is mounted, one has a listener. -/
def State.Heard (state : State) : Prop :=
  state.mounted = [] ∨ ∃ component ∈ state.mounted, component.id ∈ state.listeners

instance (state : State) : Decidable state.Heard := inferInstanceAs (Decidable (_ ∨ _))

/-- A command is not replaced while it would still speak; a component that has sent the first
command of a project stays mounted; and no component stays behind without a listener. -/
def Orderly (state : State) : Event → Prop
  | .send id =>
    (state.sent ≠ 0 → (state.streams (state.sent - 1)).phase.Quiet) ∧
      (state.isMounted id = true ∨ state.Heard)
  | .unmount component =>
    (component.subscribed = true ∨ component.id ∉ state.listeners) ∧
      (state.sent ≠ 0 → (state.unmount component).Heard)
  | _ => True

instance (state : State) : (event : Event) → Decidable (Orderly state event)
  | .send _ | .unmount _ => inferInstanceAs (Decidable (_ ∧ _))
  | .mount | .disconnect | .session _ | .answer _ _ | .chunk _ _ | .done _ | .fail _ | .resume _
  | .abortSeen _ => isTrue trivial

/-! ## The invariant -/

/-- What has become of the messages of a stream. -/
structure Accounted (deliveries : List Delivery) (stream arrived : ℕ) (background : List ℕ) :
    Prop where
  waiting : ∃ first, first ≤ arrived ∧ arrived ≤ first + backgroundLimit ∧
    background = List.range' first (arrived - first)
  undelivered : ∀ delivery ∈ deliveries, delivery.stream = stream → delivery.message ∉ background
  complete : ∀ message < arrived,
    (∃ delivery ∈ deliveries, delivery.stream = stream ∧ delivery.message = message) ∨
      message ∈ background ∨ Superseded deliveries stream arrived message

structure Inv (state : State) : Prop where
  unsent : state.sent = 0 → state.listeners = []
  fresh : ∀ stream, state.sent ≤ stream → state.streams stream = {}
  ids : ∀ component ∈ state.mounted, component.id < state.mounts
  mountedOnce : (state.mounted.map Component.id).Nodup
  listening : ∀ id ∈ state.listeners, state.isMounted id = true
  listenersOnce : state.listeners.Nodup
  heard : state.sent ≠ 0 → state.Heard
  quiet : ∀ stream, stream + 1 < state.sent →
    (state.streams stream).aborted = true ∧ (state.streams stream).phase.Quiet
  bounds : ∀ delivery ∈ state.deliveries, delivery.stream < state.sent ∧
    delivery.message < (state.streams delivery.stream).arrived ∧ delivery.listener < state.mounts
  toMounted : ∀ delivery ∈ state.deliveries, delivery.mounted = true
  ofCurrent : ∀ delivery ∈ state.deliveries, delivery.current = true
  inOrder : state.deliveries.Pairwise InOrder
  once : state.deliveries.Pairwise Once
  live : ∀ stream, stream + 1 = state.sent → state.mounted ≠ [] →
    (state.streams stream).backgroundMessages = []
  accounted : ∀ stream, stream + 1 = state.sent → Accounted state.deliveries stream
    (state.streams stream).arrived (state.streams stream).backgroundMessages

theorem Inv.kept (hinv : Inv state) : Kept state where
  toMounted := hinv.toMounted
  ofCurrent := hinv.ofCurrent
  inOrder := hinv.inOrder
  once := hinv.once
  live := hinv.live
  complete stream hstream := (hinv.accounted stream hstream).complete

theorem inv_init : Inv machine.init where
  unsent _ := rfl
  fresh _ _ := rfl
  ids _ hcomponent := by cases hcomponent
  mountedOnce := List.nodup_nil
  listening _ hid := by cases hid
  listenersOnce := List.nodup_nil
  heard hsent := absurd rfl hsent
  quiet _ hstream := by cases hstream
  bounds _ hdelivery := by cases hdelivery
  toMounted _ hdelivery := by cases hdelivery
  ofCurrent _ hdelivery := by cases hdelivery
  inOrder := List.Pairwise.nil
  once := List.Pairwise.nil
  live _ hstream := by cases hstream
  accounted _ hstream := by cases hstream

theorem isMounted_eq_true : state.isMounted id = true ↔ ∃ component ∈ state.mounted, component.id = id := by
  simp [State.isMounted]

theorem Accounted.init : Accounted deliveries stream 0 [] where
  waiting := ⟨0, Nat.le_refl 0, Nat.zero_le _, rfl⟩
  undelivered _ _ _ := by simp
  complete _ hmessage := absurd hmessage (Nat.not_lt_zero _)

/-! ## What the steps change -/

theorem Inv.setStream (hinv : Inv state) (hstream : stream < state.sent)
    (hbackground : value.backgroundMessages = (state.streams stream).backgroundMessages)
    (harrived : value.arrived = (state.streams stream).arrived)
    (hquiet : stream + 1 < state.sent → value.aborted = true ∧ value.phase.Quiet) :
    Inv (state.setStream stream value) := by
  have hmessages : ∀ other,
      (Function.update state.streams stream value other).backgroundMessages =
          (state.streams other).backgroundMessages ∧
        (Function.update state.streams stream value other).arrived =
          (state.streams other).arrived := by
    intro other
    by_cases hsame : other = stream
    · rw [hsame, Function.update_self]
      exact ⟨hbackground, harrived⟩
    · rw [Function.update_of_ne hsame]
      exact ⟨rfl, rfl⟩
  exact
    { unsent := hinv.unsent
      fresh := by
        intro other hother
        have hne : other ≠ stream := by
          rintro rfl
          exact absurd hstream (Nat.not_lt_of_le hother)
        simp only [State.setStream, Function.update_of_ne hne]
        exact hinv.fresh other hother
      ids := hinv.ids
      mountedOnce := hinv.mountedOnce
      listening := hinv.listening
      listenersOnce := hinv.listenersOnce
      heard := hinv.heard
      quiet := by
        intro other hother
        by_cases hsame : other = stream
        · subst hsame
          simpa only [State.setStream, Function.update_self] using hquiet hother
        · simpa only [State.setStream, Function.update_of_ne hsame] using hinv.quiet other hother
      bounds := by
        intro delivery hdelivery
        have hbounds := hinv.bounds delivery hdelivery
        rw [← (hmessages delivery.stream).2] at hbounds
        exact hbounds
      toMounted := hinv.toMounted
      ofCurrent := hinv.ofCurrent
      inOrder := hinv.inOrder
      once := hinv.once
      live := by
        intro other hother hmounted
        exact (hmessages other).1.trans (hinv.live other hother hmounted)
      accounted := by
        intro other hother
        simp only [State.setStream]
        rw [(hmessages other).1, (hmessages other).2]
        exact hinv.accounted other hother }

theorem Inv.setPhase {phase : Phase} (hinv : Inv state) (hstream : stream < state.sent)
    (hquiet : stream + 1 < state.sent → phase.Quiet) : Inv (state.setPhase stream phase) :=
  hinv.setStream hstream rfl rfl fun hearlier => ⟨(hinv.quiet stream hearlier).1, hquiet hearlier⟩

theorem Inv.abort (hinv : Inv state) (hstream : stream < state.sent) : Inv (state.abort stream) :=
  hinv.setStream hstream rfl rfl fun hearlier => ⟨rfl, (hinv.quiet stream hearlier).2⟩

/-! ### A message -/

/-- The buffer after a message that nobody hears. -/
def buffered (background : List ℕ) (arrived : ℕ) : List ℕ :=
  if backgroundLimit < (background ++ [arrived]).length then (background ++ [arrived]).tail
  else background ++ [arrived]

theorem Accounted.buffered (haccounted : Accounted deliveries stream arrived background)
    (hbounds : ∀ delivery ∈ deliveries, delivery.stream = stream → delivery.message < arrived) :
    Accounted deliveries stream (arrived + 1) (buffered background arrived) := by
  obtain ⟨first, hfirst, hlimit, rfl⟩ := haccounted.waiting
  have hall : List.range' first (arrived - first) ++ [arrived] =
      List.range' first (arrived + 1 - first) := by
    have hcount : arrived + 1 - first = arrived - first + 1 := by omega
    have hlast : first + (arrived - first) = arrived := by omega
    rw [hcount, List.range'_concat, Nat.one_mul, hlast]
  have hlength : (List.range' first (arrived - first) ++ [arrived]).length = arrived + 1 - first := by
    rw [hall, List.length_range']
  have hunheard : ∀ delivery ∈ deliveries, delivery.stream = stream →
      delivery.message ∉ List.range' first (arrived + 1 - first) := by
    intro delivery hdelivery hown hmem
    have hlt := hbounds delivery hdelivery hown
    refine haccounted.undelivered delivery hdelivery hown ?_
    rw [List.mem_range'_1] at hmem ⊢
    omega
  -- The oldest message leaves a full buffer.
  have hrange : ∃ start, start ≤ arrived + 1 ∧ arrived + 1 ≤ start + backgroundLimit ∧
      RunStream.buffered (List.range' first (arrived - first)) arrived =
        List.range' start (arrived + 1 - start) ∧
      (start = first ∨ start = first + 1 ∧ first + backgroundLimit = arrived) := by
    rw [RunStream.buffered, hlength, hall]
    by_cases hfull : backgroundLimit < arrived + 1 - first
    · have hcount : arrived + 1 - first = arrived + 1 - (first + 1) + 1 := by omega
      refine ⟨first + 1, by omega, by omega, ?_, .inr ⟨rfl, by omega⟩⟩
      rw [if_pos hfull, hcount, List.range'_succ, List.tail_cons]
    · exact ⟨first, by omega, by omega, if_neg hfull, .inl rfl⟩
  obtain ⟨start, hstart, hroom, hbuffered, hwhich⟩ := hrange
  rw [hbuffered]
  apply Accounted.mk
  · exact ⟨start, hstart, hroom, rfl⟩
  · intro delivery hdelivery hown hmem
    refine hunheard delivery hdelivery hown ?_
    rw [List.mem_range'_1] at hmem ⊢
    omega
  · intro message hmessage
    by_cases hlast : message = arrived
    · refine .inr (.inl ?_)
      have hpos : 0 < backgroundLimit := by decide
      rw [List.mem_range'_1]
      omega
    · rcases haccounted.complete message (by omega) with hread | hwaits | hgone
      · exact .inl hread
      · by_cases hkept : start ≤ message
        · refine .inr (.inl ?_)
          rw [List.mem_range'_1] at hwaits ⊢
          omega
        · refine .inr (.inr ⟨?_, ?_⟩)
          · rw [List.mem_range'_1] at hwaits
            omega
          · intro later hafter hwithin delivery hdelivery hown hsame
            refine absurd ?_ (hunheard delivery hdelivery hown)
            rw [List.mem_range'_1] at hwaits ⊢
            omega
      · exact .inr (.inr ⟨by have := hgone.1; omega, hgone.2⟩)

theorem Accounted.heard (haccounted : Accounted deliveries stream arrived [])
    (hadded : ∀ delivery ∈ added, delivery.message = arrived)
    (hheard : ∃ delivery ∈ added, delivery.stream = stream) :
    Accounted (deliveries ++ added) stream (arrived + 1) [] := by
  apply Accounted.mk
  · exact ⟨arrived + 1, Nat.le_refl _, Nat.le_add_right _ _, by simp⟩
  · intro _ _ _
    simp
  · intro message hmessage
    by_cases hlast : message = arrived
    · obtain ⟨delivery, hdelivery, hown⟩ := hheard
      exact .inl ⟨delivery, List.mem_append_right _ hdelivery, hown,
        (hadded delivery hdelivery).trans hlast.symm⟩
    · rcases haccounted.complete message (by omega) with hread | hwaits | hgone
      · obtain ⟨delivery, hdelivery, hread⟩ := hread
        exact .inl ⟨delivery, List.mem_append_left _ hdelivery, hread⟩
      · cases hwaits
      · refine .inr (.inr ⟨by have := hgone.1; omega, ?_⟩)
        intro later hafter hwithin delivery hdelivery hown hsame
        rcases List.mem_append.mp hdelivery with hold | hnew
        · exact hgone.2 later hafter hwithin delivery hold hown hsame
        · have hlate := hadded delivery hnew
          have hearly := hgone.1
          omega

theorem State.Heard.mounted_eq_nil (hheard : state.Heard) (hnone : state.listeners = []) :
    state.mounted = [] := by
  rcases hheard with hempty | ⟨component, -, hlistens⟩
  · exact hempty
  · rw [hnone] at hlistens
    cases hlistens

/-- The current stream is the only one that changes. -/
theorem Inv.fresh_update (hinv : Inv state) (hstream : stream + 1 = state.sent) :
    ∀ other, state.sent ≤ other → Function.update state.streams stream value other = {} := by
  intro other hother
  rw [Function.update_of_ne (by omega)]
  exact hinv.fresh other hother

theorem Inv.quiet_update (hinv : Inv state) (hstream : stream + 1 = state.sent) :
    ∀ other, other + 1 < state.sent →
      (Function.update state.streams stream value other).aborted = true ∧
        (Function.update state.streams stream value other).phase.Quiet := by
  intro other hother
  rw [Function.update_of_ne (by omega)]
  exact hinv.quiet other hother

/-- More messages arrive. -/
theorem bounds_update {delivery : Delivery}
    (harrived : value.arrived = (state.streams stream).arrived + 1)
    (hbounds : delivery.stream < state.sent ∧
      delivery.message < (state.streams delivery.stream).arrived ∧ delivery.listener < state.mounts) :
    delivery.stream < state.sent ∧
      delivery.message < (Function.update state.streams stream value delivery.stream).arrived ∧
        delivery.listener < state.mounts := by
  refine ⟨hbounds.1, ?_, hbounds.2.2⟩
  have hlt := hbounds.2.1
  by_cases hsame : delivery.stream = stream
  · rw [hsame] at hlt ⊢
    rw [Function.update_self, harrived]
    exact Nat.lt_succ_of_lt hlt
  · rwa [Function.update_of_ne hsame]

theorem Inv.emit_unheard (hinv : Inv state) (hstream : stream + 1 = state.sent)
    (hnone : state.listeners = []) : Inv (state.emitMessage stream) := by
  have hsent : state.sent ≠ 0 := by omega
  have hempty := (hinv.heard hsent).mounted_eq_nil hnone
  have hnext : state.emitMessage stream = state.setStream stream
      { state.streams stream with
        backgroundMessages := buffered (state.streams stream).backgroundMessages
          (state.streams stream).arrived
        arrived := (state.streams stream).arrived + 1 } := by
    rw [State.emitMessage, if_pos hnone]
    rfl
  rw [hnext]
  exact
    { unsent := hinv.unsent
      fresh := hinv.fresh_update hstream
      ids := hinv.ids
      mountedOnce := hinv.mountedOnce
      listening := hinv.listening
      listenersOnce := hinv.listenersOnce
      heard := hinv.heard
      quiet := hinv.quiet_update hstream
      bounds := fun delivery hdelivery => bounds_update rfl (hinv.bounds delivery hdelivery)
      toMounted := hinv.toMounted
      ofCurrent := hinv.ofCurrent
      inOrder := hinv.inOrder
      once := hinv.once
      live := fun _ _ hmounted => absurd hempty hmounted
      accounted := by
        intro other hother
        obtain rfl : other = stream := Nat.succ.inj (hother.trans hstream.symm)
        simp only [State.setStream, Function.update_self]
        refine (hinv.accounted other hstream).buffered fun delivery hdelivery hown => ?_
        have hbounds := (hinv.bounds delivery hdelivery).2.1
        rwa [hown] at hbounds }

theorem Inv.emit_heard (hinv : Inv state) (hstream : stream + 1 = state.sent)
    (hsome : state.listeners ≠ []) : Inv (state.emitMessage stream) := by
  obtain ⟨listener, hlistener⟩ := List.exists_mem_of_ne_nil _ hsome
  obtain ⟨component, hcomponent, -⟩ := isMounted_eq_true.mp (hinv.listening listener hlistener)
  have hmounted : state.mounted ≠ [] := List.ne_nil_of_mem hcomponent
  have hbackground := hinv.live stream hstream hmounted
  have hbounds : ∀ delivery ∈ state.deliveries, delivery.stream = stream →
      delivery.message < (state.streams stream).arrived := by
    intro delivery hdelivery hown
    have hlt := (hinv.bounds delivery hdelivery).2.1
    rwa [hown] at hlt
  have hadded : ∀ delivery ∈ state.listeners.map
      (state.delivery stream (state.streams stream).arrived true),
        ∃ id ∈ state.listeners,
          delivery = state.delivery stream (state.streams stream).arrived true id := by
    intro delivery hdelivery
    obtain ⟨id, hid, hsame⟩ := List.mem_map.mp hdelivery
    exact ⟨id, hid, hsame.symm⟩
  rw [State.emitMessage, if_neg hsome]
  exact
    { unsent := hinv.unsent
      fresh := hinv.fresh_update hstream
      ids := hinv.ids
      mountedOnce := hinv.mountedOnce
      listening := hinv.listening
      listenersOnce := hinv.listenersOnce
      heard := hinv.heard
      quiet := hinv.quiet_update hstream
      bounds := by
        intro delivery hdelivery
        rcases List.mem_append.mp hdelivery with hold | hnew
        · exact bounds_update rfl (hinv.bounds delivery hold)
        · obtain ⟨id, hid, rfl⟩ := hadded delivery hnew
          obtain ⟨own, hown, hsame⟩ := isMounted_eq_true.mp (hinv.listening id hid)
          refine ⟨?_, ?_, ?_⟩
          · show stream < state.sent
            omega
          · simp only [State.setStream, State.delivery, Function.update_self]
            exact Nat.lt_succ_self _
          · show id < state.mounts
            rw [← hsame]
            exact hinv.ids own hown
      toMounted := by
        intro delivery hdelivery
        rcases List.mem_append.mp hdelivery with hold | hnew
        · exact hinv.toMounted delivery hold
        · obtain ⟨id, hid, rfl⟩ := hadded delivery hnew
          exact hinv.listening id hid
      ofCurrent := by
        intro delivery hdelivery
        rcases List.mem_append.mp hdelivery with hold | hnew
        · exact hinv.ofCurrent delivery hold
        · obtain ⟨id, hid, rfl⟩ := hadded delivery hnew
          exact decide_eq_true hstream
      inOrder := by
        refine List.pairwise_append.mpr ⟨hinv.inOrder, ?_, ?_⟩
        · refine List.pairwise_map.mpr (hinv.listenersOnce.imp ?_)
          exact fun hne hsame => absurd hsame hne
        · intro first hfirst second hsecond _ hsame
          obtain ⟨id, -, rfl⟩ := hadded second hsecond
          exact hbounds first hfirst hsame
      once := by
        refine List.pairwise_append.mpr ⟨hinv.once, ?_, ?_⟩
        · exact List.pairwise_map.mpr (hinv.listenersOnce.imp fun _ _ _ => ⟨rfl, rfl⟩)
        · intro first hfirst second hsecond hown hsame
          obtain ⟨id, -, rfl⟩ := hadded second hsecond
          exact absurd hsame (Nat.ne_of_lt (hbounds first hfirst hown))
      live := by
        intro other hother _
        obtain rfl : other = stream := Nat.succ.inj (hother.trans hstream.symm)
        simpa only [State.setStream, Function.update_self] using hbackground
      accounted := by
        intro other hother
        obtain rfl : other = stream := Nat.succ.inj (hother.trans hstream.symm)
        have haccounted := hinv.accounted other hstream
        rw [hbackground] at haccounted
        simp only [State.setStream, Function.update_self]
        rw [hbackground]
        apply haccounted.heard
        · intro delivery hdelivery
          obtain ⟨id, -, rfl⟩ := hadded delivery hdelivery
          rfl
        · exact ⟨_, List.mem_map_of_mem hlistener, rfl⟩ }

theorem Inv.emitMessage (hinv : Inv state) (hstream : stream + 1 = state.sent) :
    Inv (state.emitMessage stream) := by
  by_cases hnone : state.listeners = []
  · exact hinv.emit_unheard hstream hnone
  · exact hinv.emit_heard hstream hnone

@[simp] theorem sent_emitMessage : (state.emitMessage stream).sent = state.sent := by
  unfold State.emitMessage
  split <;> rfl

@[simp] theorem sent_emitMessages {count : ℕ} :
    (State.emitMessages stream count state).sent = state.sent := by
  induction count generalizing state with
  | zero => rfl
  | succ count ih => rw [State.emitMessages, ih, sent_emitMessage]

theorem Inv.emitMessages {count : ℕ} (hinv : Inv state) (hstream : stream + 1 = state.sent) :
    Inv (State.emitMessages stream count state) := by
  induction count generalizing state with
  | zero => exact hinv
  | succ count ih => exact ih (hinv.emitMessage hstream) (hstream.trans sent_emitMessage.symm)

/-! ### Components -/

theorem Inv.ids_mount (hinv : Inv state) (subscribed : Bool) :
    ∀ component ∈ state.mounted ++ [⟨state.mounts, subscribed⟩], component.id < state.mounts + 1 := by
  intro component hcomponent
  rcases List.mem_append.mp hcomponent with hold | hadded
  · exact Nat.lt_succ_of_lt (hinv.ids component hold)
  · rw [List.mem_singleton.mp hadded]
    exact Nat.lt_succ_self _

theorem Inv.mountedOnce_mount (hinv : Inv state) (subscribed : Bool) :
    ((state.mounted ++ [Component.mk state.mounts subscribed]).map Component.id).Nodup := by
  rw [List.map_append]
  refine List.nodup_append.mpr ⟨hinv.mountedOnce, List.nodup_singleton _, ?_⟩
  intro id hid other hother
  obtain ⟨component, hcomponent, rfl⟩ := List.mem_map.mp hid
  rw [List.mem_singleton.mp hother]
  exact Nat.ne_of_lt (hinv.ids component hcomponent)

theorem Inv.mount_unsent (hinv : Inv state) (hsent : state.sent = 0) : Inv state.mount := by
  have hnone := hinv.unsent hsent
  have hnext : state.mount = { state with
      mounts := state.mounts + 1
      mounted := state.mounted ++ [⟨state.mounts, false⟩] } := by
    unfold State.mount
    rw [hsent]
  rw [hnext]
  exact
    { unsent := hinv.unsent
      fresh := hinv.fresh
      ids := hinv.ids_mount false
      mountedOnce := hinv.mountedOnce_mount false
      listening := by
        intro id hid
        rw [hnone] at hid
        cases hid
      listenersOnce := hinv.listenersOnce
      heard := fun hne => absurd hsent hne
      quiet := hinv.quiet
      bounds := by
        intro delivery hdelivery
        have hbounds := hinv.bounds delivery hdelivery
        exact ⟨hbounds.1, hbounds.2.1, Nat.lt_succ_of_lt hbounds.2.2⟩
      toMounted := hinv.toMounted
      ofCurrent := hinv.ofCurrent
      inOrder := hinv.inOrder
      once := hinv.once
      live := by
        intro stream hstream
        rw [hsent] at hstream
        cases hstream
      accounted := hinv.accounted }

theorem Accounted.replayed (haccounted : Accounted deliveries stream arrived background)
    (hadded : ∀ delivery ∈ added, delivery.live = false)
    (hall : ∀ message ∈ background, ∃ delivery ∈ added,
      delivery.stream = stream ∧ delivery.message = message) :
    Accounted (deliveries ++ added) stream arrived [] := by
  apply Accounted.mk
  · exact ⟨arrived, Nat.le_refl _, Nat.le_add_right _ _, by simp⟩
  · intro _ _ _
    simp
  · intro message hmessage
    rcases haccounted.complete message hmessage with hread | hwaits | hgone
    · obtain ⟨delivery, hdelivery, hread⟩ := hread
      exact .inl ⟨delivery, List.mem_append_left _ hdelivery, hread⟩
    · obtain ⟨delivery, hdelivery, hread⟩ := hall message hwaits
      exact .inl ⟨delivery, List.mem_append_right _ hdelivery, hread⟩
    · refine .inr (.inr ⟨hgone.1, ?_⟩)
      intro later hafter hwithin delivery hdelivery hown hsame
      rcases List.mem_append.mp hdelivery with hold | hnew
      · exact hgone.2 later hafter hwithin delivery hold hown hsame
      · exact hadded delivery hnew

/-- The state in which the messages that wait are replayed. -/
def State.joined (state : State) : State :=
  { state with
    mounts := state.mounts + 1
    mounted := state.mounted ++ [⟨state.mounts, true⟩]
    listeners := state.listeners ++ [state.mounts] }

theorem Inv.mount_sent (hinv : Inv state) (hstream : stream + 1 = state.sent) :
    Inv state.mount := by
  have hjoined : state.joined.isMounted state.mounts = true :=
    isMounted_eq_true.mpr ⟨_, List.mem_append_right _ List.mem_cons_self, rfl⟩
  have hnext : state.mount =
      { state.joined.setStream stream { state.streams stream with backgroundMessages := [] } with
        deliveries := state.deliveries ++ (state.streams stream).backgroundMessages.map
          fun message => state.joined.delivery stream message false state.mounts } := by
    unfold State.mount
    split
    · omega
    next other hsent =>
      have hsame : other = stream := by omega
      subst hsame
      rfl
  have haccounted := hinv.accounted stream hstream
  have hadded : ∀ delivery ∈ (state.streams stream).backgroundMessages.map
      (fun message => state.joined.delivery stream message false state.mounts),
        ∃ message ∈ (state.streams stream).backgroundMessages,
          delivery = state.joined.delivery stream message false state.mounts := by
    intro delivery hdelivery
    obtain ⟨message, hmessage, hsame⟩ := List.mem_map.mp hdelivery
    exact ⟨message, hmessage, hsame.symm⟩
  obtain ⟨first, hfirst, -, hrange⟩ := haccounted.waiting
  have hsorted : (state.streams stream).backgroundMessages.Pairwise (· < ·) := by
    rw [hrange]
    exact List.pairwise_lt_range'
  have hnew : state.mounts ∉ state.listeners := by
    intro hmem
    obtain ⟨component, hcomponent, hsame⟩ := isMounted_eq_true.mp (hinv.listening _ hmem)
    exact absurd hsame (Nat.ne_of_lt (hinv.ids component hcomponent))
  rw [hnext]
  exact
    { unsent := fun hnone => absurd hnone (by show state.sent ≠ 0; omega)
      fresh := hinv.fresh_update hstream
      ids := hinv.ids_mount true
      mountedOnce := hinv.mountedOnce_mount true
      listening := by
        intro id hid
        rcases List.mem_append.mp hid with hold | hadded
        · obtain ⟨component, hcomponent, hsame⟩ := isMounted_eq_true.mp (hinv.listening id hold)
          exact isMounted_eq_true.mpr ⟨component, List.mem_append_left _ hcomponent, hsame⟩
        · rw [List.mem_singleton.mp hadded]
          exact hjoined
      listenersOnce :=
        List.nodup_append.mpr ⟨hinv.listenersOnce, List.nodup_singleton _, fun id hid other hother =>
          List.mem_singleton.mp hother ▸ fun hsame => hnew (hsame ▸ hid)⟩
      heard := fun _ => .inr ⟨⟨state.mounts, true⟩, List.mem_append_right _ List.mem_cons_self,
        List.mem_append_right _ List.mem_cons_self⟩
      quiet := hinv.quiet_update hstream
      bounds := by
        intro delivery hdelivery
        have harrived : ∀ other, (Function.update state.streams stream
            { state.streams stream with backgroundMessages := [] } other).arrived =
              (state.streams other).arrived := by
          intro other
          by_cases hsame : other = stream
          · rw [hsame, Function.update_self]
          · rw [Function.update_of_ne hsame]
        rcases List.mem_append.mp hdelivery with hold | hnew
        · have hbounds := hinv.bounds delivery hold
          exact ⟨hbounds.1, (harrived _).symm ▸ hbounds.2.1, Nat.lt_succ_of_lt hbounds.2.2⟩
        · obtain ⟨message, hmessage, rfl⟩ := hadded delivery hnew
          refine ⟨?_, ?_, Nat.lt_succ_self _⟩
          · show stream < state.sent
            omega
          · rw [hrange, List.mem_range'_1] at hmessage
            refine (harrived _).symm ▸ ?_
            show message < (state.streams stream).arrived
            omega
      toMounted := by
        intro delivery hdelivery
        rcases List.mem_append.mp hdelivery with hold | hnew
        · exact hinv.toMounted delivery hold
        · obtain ⟨message, hmessage, rfl⟩ := hadded delivery hnew
          exact hjoined
      ofCurrent := by
        intro delivery hdelivery
        rcases List.mem_append.mp hdelivery with hold | hnew
        · exact hinv.ofCurrent delivery hold
        · obtain ⟨message, hmessage, rfl⟩ := hadded delivery hnew
          exact decide_eq_true hstream
      inOrder := by
        refine List.pairwise_append.mpr ⟨hinv.inOrder, ?_, ?_⟩
        · exact List.pairwise_map.mpr (hsorted.imp fun hlt _ _ => hlt)
        · intro before hbefore after hafter hsame
          obtain ⟨message, -, rfl⟩ := hadded after hafter
          exact absurd hsame (Nat.ne_of_lt (hinv.bounds before hbefore).2.2)
      once := by
        refine List.pairwise_append.mpr ⟨hinv.once, ?_, ?_⟩
        · exact List.pairwise_map.mpr (hsorted.imp fun hlt _ hsame => absurd hsame (Nat.ne_of_lt hlt))
        · intro before hbefore after hafter hown hsame
          obtain ⟨message, hmessage, rfl⟩ := hadded after hafter
          have hunread := haccounted.undelivered before hbefore hown
          rw [hsame] at hunread
          exact absurd hmessage hunread
      live := by
        intro other hother _
        obtain rfl : other = stream := Nat.succ.inj (hother.trans hstream.symm)
        simp only [State.setStream, Function.update_self]
      accounted := by
        intro other hother
        obtain rfl : other = stream := Nat.succ.inj (hother.trans hstream.symm)
        simp only [State.setStream, Function.update_self]
        apply haccounted.replayed
        · intro delivery hdelivery
          obtain ⟨message, -, rfl⟩ := hadded delivery hdelivery
          rfl
        · intro message hmessage
          exact ⟨_, List.mem_map_of_mem hmessage, rfl, rfl⟩ }

theorem Inv.mount (hinv : Inv state) : Inv state.mount := by
  cases hsent : state.sent with
  | zero => exact hinv.mount_unsent hsent
  | succ stream => exact hinv.mount_sent hsent.symm

theorem Inv.unmount (hinv : Inv state) (hcomponent : component ∈ state.mounted)
    (horderly : Orderly state (.unmount component)) : Inv (state.unmount component) := by
  obtain ⟨hcleaned, hheard⟩ := horderly
  have hnodup : state.mounted.Nodup := hinv.mountedOnce.of_map _
  exact
    { unsent := by
        intro hsent
        have hnone := hinv.unsent hsent
        simp [State.unmount, hnone]
      fresh := hinv.fresh
      ids := fun other hother => hinv.ids other (List.mem_of_mem_erase hother)
      mountedOnce := hinv.mountedOnce.sublist (List.Sublist.map _ List.erase_sublist)
      listening := by
        intro id hid
        have hold : id ∈ state.listeners ∧ id ≠ component.id := by
          simp only [State.unmount] at hid
          rcases hcleaned with hsubscribed | hsilent
          · rw [if_pos hsubscribed, hinv.listenersOnce.mem_erase_iff] at hid
            exact ⟨hid.2, hid.1⟩
          · have hmem : id ∈ state.listeners := by
              split at hid
              · exact List.mem_of_mem_erase hid
              · exact hid
            exact ⟨hmem, fun hsame => hsilent (hsame ▸ hmem)⟩
        obtain ⟨other, hother, hsame⟩ := isMounted_eq_true.mp (hinv.listening id hold.1)
        refine isMounted_eq_true.mpr ⟨other, ?_, hsame⟩
        refine (List.mem_erase_of_ne ?_).mpr hother
        rintro rfl
        exact hold.2 hsame.symm
      listenersOnce := by
        simp only [State.unmount]
        split
        · exact hinv.listenersOnce.erase _
        · exact hinv.listenersOnce
      heard := hheard
      quiet := hinv.quiet
      bounds := hinv.bounds
      toMounted := hinv.toMounted
      ofCurrent := hinv.ofCurrent
      inOrder := hinv.inOrder
      once := hinv.once
      live := by
        intro stream hstream hmounted
        exact hinv.live stream hstream (List.ne_nil_of_mem hcomponent)
      accounted := hinv.accounted }

/-! ### Commands -/

theorem Inv.replace {listeners : List ℕ} (hinv : Inv state)
    (hquiet : ∀ stream, stream + 1 = state.sent →
      (state.streams stream).aborted = true ∧ (state.streams stream).phase.Quiet)
    (hlistening : ∀ id ∈ listeners, state.isMounted id = true) (honce : listeners.Nodup)
    (hheard : ({ state with listeners := listeners } : State).Heard) :
    Inv { state with sent := state.sent + 1, listeners := listeners } where
  unsent hsent := absurd hsent (Nat.succ_ne_zero _)
  fresh other hother := hinv.fresh other (Nat.le_of_succ_le hother)
  ids := hinv.ids
  mountedOnce := hinv.mountedOnce
  listening := hlistening
  listenersOnce := honce
  heard _ := hheard
  quiet other hother := by
    rcases Nat.lt_or_eq_of_le (Nat.le_of_lt_succ hother) with hearlier | hlast
    · exact hinv.quiet other hearlier
    · exact hquiet other hlast
  bounds delivery hdelivery := by
    obtain ⟨hstream, hbounds⟩ := hinv.bounds delivery hdelivery
    exact ⟨Nat.lt_succ_of_lt hstream, hbounds⟩
  toMounted := hinv.toMounted
  ofCurrent := hinv.ofCurrent
  inOrder := hinv.inOrder
  once := hinv.once
  live other hother _ := by
    have hlast : state.sent ≤ other := Nat.le_of_eq (Nat.succ.inj hother).symm
    rw [hinv.fresh other hlast]
  accounted other hother := by
    have hlast : state.sent ≤ other := Nat.le_of_eq (Nat.succ.inj hother).symm
    rw [hinv.fresh other hlast]
    exact Accounted.init

theorem Inv.sendCommand (hinv : Inv state) (horderly : Orderly state (.send id)) :
    Inv (state.sendCommand id) := by
  obtain ⟨hquiet, hknown⟩ := horderly
  have haborted : ∃ aborted : State, Inv aborted ∧ aborted.sent = state.sent ∧
      aborted.mounted = state.mounted ∧
      state.sendCommand id = { aborted with
        sent := aborted.sent + 1
        listeners := if state.isMounted id && !state.listeners.contains id then
          state.listeners ++ [id] else state.listeners } ∧
      ∀ stream, stream + 1 = aborted.sent →
        (aborted.streams stream).aborted = true ∧ (aborted.streams stream).phase.Quiet := by
    unfold State.sendCommand
    by_cases hsent : state.sent = 0
    · simp only [if_pos hsent]
      refine ⟨state, hinv, rfl, rfl, rfl, fun stream hstream => ?_⟩
      omega
    · simp only [if_neg hsent]
      refine ⟨_, hinv.abort (by omega), rfl, rfl, rfl, fun stream hstream => ?_⟩
      have hlast : stream = state.sent - 1 := Nat.eq_sub_of_add_eq hstream
      subst hlast
      simp only [State.abort, State.setStream, Function.update_self]
      exact ⟨trivial, hquiet hsent⟩
  obtain ⟨aborted, hinv', -, hmounted, hnext, hquiet'⟩ := haborted
  have hisMounted : ∀ other, aborted.isMounted other = state.isMounted other := by
    intro other
    rw [State.isMounted, State.isMounted, hmounted]
  rw [hnext]
  refine hinv'.replace hquiet' ?_ ?_ ?_
  · intro other hother
    rw [hisMounted]
    split at hother
    next hadd =>
      rcases List.mem_append.mp hother with hold | hadded
      · exact hinv.listening other hold
      · rw [List.mem_singleton.mp hadded]
        exact (Bool.and_eq_true_iff.mp hadd).1
    · exact hinv.listening other hother
  · split
    next hadd =>
      have hnew : id ∉ state.listeners := by
        simpa using (Bool.and_eq_true_iff.mp hadd).2
      refine List.nodup_append.mpr ⟨hinv.listenersOnce, List.nodup_singleton _, ?_⟩
      intro own hown other hother hsame
      rw [hsame, List.mem_singleton.mp hother] at hown
      exact hnew hown
    · exact hinv.listenersOnce
  · show State.Heard _
    unfold State.Heard
    simp only [hmounted]
    by_cases hmember : state.isMounted id = true
    · obtain ⟨component, hcomponent, hsame⟩ := isMounted_eq_true.mp hmember
      refine .inr ⟨component, hcomponent, ?_⟩
      rw [hsame]
      split
      · exact List.mem_append_right _ List.mem_cons_self
      next hadd =>
        simpa [hmember] using hadd
    · rw [if_neg (by simp [hmember])]
      exact hknown.resolve_left hmember

/-! ## Every step -/

/-- A stream that may still speak has not been replaced. -/
theorem Inv.current_of_not_quiet (hinv : Inv state) (hstream : stream < state.sent)
    (hspeaks : ¬ (state.streams stream).phase.Quiet) : stream + 1 = state.sent := by
  by_contra hne
  exact hspeaks (hinv.quiet stream (by omega)).2

theorem Inv.current_of_not_aborted (hinv : Inv state) (hstream : stream < state.sent)
    (hrunning : (state.streams stream).aborted = false) : stream + 1 = state.sent := by
  by_contra hne
  rw [(hinv.quiet stream (by omega)).1] at hrunning
  cases hrunning

theorem Inv.emit_finished (hinv : Inv state) (hstream : stream + 1 = state.sent) :
    Inv ((state.emitMessage stream).setPhase stream .finished) := by
  have hemitted := hinv.emitMessage hstream
  refine hemitted.setPhase ?_ fun _ => trivial
  rw [sent_emitMessage]
  omega

theorem Inv.resume (hinv : Inv state) (hstream : stream < state.sent)
    (hresume : resume state stream = some next) : Inv next := by
  unfold RunStream.resume at hresume
  split at hresume
  · cases hresume
    exact hinv.setPhase hstream fun _ => trivial
  next hphase =>
    cases hresume
    have hcurrent := hinv.current_of_not_quiet hstream (by rw [hphase]; exact fun h => h)
    exact hinv.setPhase hstream fun hearlier => by omega
  next hphase =>
    cases hresume
    exact hinv.emit_finished
      (hinv.current_of_not_quiet hstream (by rw [hphase]; exact fun h => h))
  next hphase =>
    cases hresume
    exact hinv.emit_finished
      (hinv.current_of_not_quiet hstream (by rw [hphase]; exact fun h => h))
  next count hphase =>
    cases hresume
    have hcurrent := hinv.current_of_not_quiet hstream (by rw [hphase]; exact fun h => h)
    refine (hinv.emitMessages hcurrent).setPhase ?_ fun _ => trivial
    rw [sent_emitMessages]
    exact hstream
  all_goals cases hresume

theorem inv_step (hinv : Inv state) (horderly : Orderly state event)
    (hstep : step state event = some next) : Inv next := by
  cases event with
  | mount =>
    cases hstep
    exact hinv.mount
  | unmount component =>
    obtain ⟨hcomponent, hnext⟩ := Option.ite_none_right_eq_some.mp hstep
    cases hnext
    exact hinv.unmount hcomponent horderly
  | send id =>
    cases hstep
    exact hinv.sendCommand horderly
  | disconnect =>
    simp only [step] at hstep
    split at hstep
    · cases hstep
      exact hinv
    · cases hstep
      exact hinv.abort (by omega)
  | session stream =>
    obtain ⟨⟨hstream, -⟩, hnext⟩ := Option.ite_none_right_eq_some.mp hstep
    cases hnext
    exact hinv.setPhase hstream fun _ => trivial
  | answer stream answer =>
    obtain ⟨⟨hstream, -, hrunning⟩, hnext⟩ := Option.ite_none_right_eq_some.mp hstep
    cases hnext
    have hcurrent := hinv.current_of_not_aborted hstream hrunning
    exact hinv.setPhase hstream fun hearlier => by omega
  | chunk stream count =>
    obtain ⟨⟨hstream, -, hrunning⟩, hnext⟩ := Option.ite_none_right_eq_some.mp hstep
    cases hnext
    have hcurrent := hinv.current_of_not_aborted hstream hrunning
    exact hinv.setPhase hstream fun hearlier => by omega
  | done stream =>
    obtain ⟨⟨hstream, -⟩, hnext⟩ := Option.ite_none_right_eq_some.mp hstep
    cases hnext
    exact hinv.setPhase hstream fun _ => trivial
  | fail stream =>
    obtain ⟨⟨hstream, hfails⟩, hnext⟩ := Option.ite_none_right_eq_some.mp hstep
    cases hnext
    refine hinv.emit_finished ?_
    rcases hfails with hsession | ⟨-, hrunning⟩
    · exact hinv.current_of_not_quiet hstream (by rw [hsession]; exact fun h => h)
    · exact hinv.current_of_not_aborted hstream hrunning
  | resume stream =>
    obtain ⟨hstream, hnext⟩ := Option.ite_none_right_eq_some.mp hstep
    exact hinv.resume hstream hnext
  | abortSeen stream =>
    obtain ⟨⟨hstream, -⟩, hnext⟩ := Option.ite_none_right_eq_some.mp hstep
    cases hnext
    exact hinv.setPhase hstream fun _ => trivial

/-- **Nothing is lost, in any run whose steps are orderly.** -/
theorem kept_of_orderly (hpath : machine.Path Orderly events state) : Kept state :=
  (hpath.invariant inv_init inv_step).kept

/-- A component sends a command and stays; one that was opened later is left and opened again,
and a chunk that comes in between is heard by both that are there. -/
theorem kept_of_navigation :
    ∃ state, Kept state ∧ state.deliveries =
      [⟨0, 0, 0, true, true, true⟩, ⟨1, 0, 0, true, true, true⟩, ⟨0, 0, 1, true, true, true⟩] := by
  obtain ⟨state, hrun, hdeliveries⟩ : ∃ state,
      machine.runUnder Orderly machine.init
        [.mount, .send 0, .session 0, .answer 0 .ok, .resume 0, .mount, .chunk 0 1, .resume 0,
          .unmount ⟨1, true⟩, .chunk 0 1, .resume 0, .mount, .done 0, .send 0] = some state ∧
      state.deliveries =
        [⟨0, 0, 0, true, true, true⟩, ⟨1, 0, 0, true, true, true⟩,
          ⟨0, 0, 1, true, true, true⟩] := ⟨_, rfl, rfl⟩
  exact ⟨state, kept_of_orderly (Machine.path_of_runUnder hrun), hdeliveries⟩

/-- A component that was mounted before the first command stays a listener when it is left: its
output is given to nobody, and not to the next that is opened. -/
theorem not_kept_of_first_component :
    ¬ ∀ (events : List Event) (state : State),
      machine.Path Machine.anyStep events state → Kept state := by
  intro hclaim
  obtain ⟨state, hrun, hdeliveries⟩ : ∃ state,
      machine.runFrom machine.init
        [.mount, .send 0, .session 0, .answer 0 .ok, .resume 0, .unmount ⟨0, false⟩, .chunk 0 1,
          .resume 0] = some state ∧
      state.deliveries = [⟨0, 0, 0, true, false, true⟩] := ⟨_, rfl, rfl⟩
  have hmounted := (hclaim _ _ (Machine.path_of_runFrom hrun)).toMounted ⟨0, 0, 0, true, false, true⟩
    (by rw [hdeliveries]; exact List.mem_cons_self)
  cases hmounted

end DbtCraft.Web.RunStream

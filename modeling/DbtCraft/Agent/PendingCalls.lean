/-
# The calls of a harness

`_call`, `_read_loop`, `close` and `alive` of `HarnessSession`, `app/harness.py`: a call leaves
a future for its id, the reader resolves it, and when the reader ends it fails every future
that is left. `json.loads` belongs to the language; what it makes of the bytes of a line is a
parameter.

A prompt is a call that has the lock of the session. A call whose frame cannot be written
raises and leaves its future where it is.
-/

import DbtCraft.Agent.ReadLoop
import DbtCraft.Math.Machine

namespace DbtCraft.Agent.PendingCalls

open DbtCraft.Python DbtCraft.Math

/-- What `json.loads` makes of a line. -/
inductive Loaded
  | value (message : Value)
  | /-- A `JSONDecodeError`. -/
    decodeError
  | /-- Any other exception, as of the encoding, of the depth or of a long number. -/
    raises

/-- The limit of `readline`. -/
def maxLine : ℕ := 64 * 1024

/-- The process of a session. -/
inductive Process
  | absent
  | running
  | /-- It has a return code. -/
    exited
  deriving DecidableEq

/-- The reader of a session. -/
inductive Reader
  | absent
  | /-- A task that has not begun. -/
    created
  | running
  | /-- A task that has been cancelled and has not ended. -/
    cancelled
  | ended
  deriving DecidableEq

/-- The task has not ended, and will come to its `finally` if it does. -/
def Reader.isRunning : Reader → Bool
  | .created | .running | .cancelled => true
  | _ => false

/-- The future of a call. -/
structure Future where
  id : ℕ
  /-- It is not resolved; otherwise its call was cancelled. -/
  waits : Bool

structure State where
  process : Process
  reader : Reader
  /-- `_pending`. -/
  pending : List Future
  /-- `_next_id`. -/
  nextId : ℕ

/-- What happens to a session. -/
inductive Event
  | /-- `start` spawns the process and creates the reader. -/
    start
  | /-- The reader begins. -/
    begins
  | call
  | /-- A call is cancelled, as by the time limit of `start`. -/
    abandon (id : ℕ)
  | /-- The reader reads a line. -/
    line (content : List UInt8)
  | /-- The reader reads the end of the stream. -/
    eof
  | /-- The process exits. -/
    exits
  | close
  | /-- The reader that was cancelled ends. -/
    unwinds

/-- `alive`. -/
def State.alive (state : State) : Bool := state.process = .running

/-- The call waits for its future. -/
def State.waits (state : State) (id : ℕ) : Prop :=
  ∃ future ∈ state.pending, future.id = id ∧ future.waits = true

/-- The `finally` of the reader. -/
def State.endReader (state : State) : State := { state with reader := .ended, pending := [] }

/-- `self._pending.pop(own, None)`, and the result of the future. -/
def State.resolve (state : State) (own : Value) : State :=
  { state with pending := state.pending.filter fun future => !own.equalsInt future.id }

variable (loads : List UInt8 → Loaded)

/-- What the reader does with a line; an empty dict looks no id up. -/
def State.read (state : State) (content : List UInt8) : State :=
  if maxLine < content.length then state.endReader
  else
    match loads content with
    | .raises => state.endReader
    | .decodeError => state
    | .value message =>
      match routed message with
      | .error _ => state.endReader
      | .ok .notification => state
      | .ok (.response own) =>
        if own.hashable ∨ state.pending.isEmpty then state.resolve own else state.endReader

/-- `close`: a task that is cancelled before it begins never comes to its `finally`. -/
def State.close (state : State) : State :=
  { state with
    process := .absent
    reader :=
      match state.reader with
      | .created => .ended
      | .running => .cancelled
      | other => other }

/-- One step. -/
def step (state : State) : Event → Option State
  | .start =>
    if state.reader = .absent ∧ state.process = .absent then
      some { state with process := .running, reader := .created }
    else none
  | .begins => if state.reader = .created then some { state with reader := .running } else none
  | .call =>
    if state.process = .absent then none
    else some { state with
      pending := state.pending ++ [⟨state.nextId + 1, true⟩], nextId := state.nextId + 1 }
  | .abandon id => some { state with
      pending := state.pending.map fun future =>
        if future.id = id then { future with waits := false } else future }
  | .line content => if state.reader = .running then some (state.read loads content) else none
  | .eof => if state.reader = .running then some state.endReader else none
  | .exits => if state.process = .running then some { state with process := .exited } else none
  | .close => some state.close
  | .unwinds => if state.reader = .cancelled then some state.endReader else none

/-- A session before `start`. -/
def machine : Machine State Event where
  init := ⟨.absent, .absent, [], 0⟩
  step := step loads

/-! ## The guarantee -/

/-- A call that waits has a reader behind it, a session whose reader has ended is not alive,
and a response ends its call. -/
structure Right (state : State) : Prop where
  behind : ∀ id, state.waits id → state.reader.isRunning = true
  reported : state.reader = .ended → state.alive = false
  answered : ∀ content message own (id : ℕ) target, content.length ≤ maxLine →
    loads content = .value message → routed message = .ok (.response own) →
      own.equalsInt id = true → step loads state (.line content) = some target → ¬ target.waits id

/-- The reader goes on after a line. -/
def State.survives (state : State) (content : List UInt8) : Bool :=
  content.length ≤ maxLine &&
    match loads content with
    | .raises => false
    | .decodeError => true
    | .value message =>
      match routed message with
      | .error _ => false
      | .ok .notification => true
      | .ok (.response own) => own.hashable || state.pending.isEmpty

/-- The reader ends only when the process has exited, nothing is called after its end, and a
session is not closed while a call waits for a reader that has not begun. -/
def Careful (state : State) : Event → Prop
  | .call => state.reader ≠ .ended
  | .line content => state.survives loads content = true ∨ state.alive = false
  | .eof => state.alive = false
  | .close => state.reader = .created → ∀ id, ¬ state.waits id
  | _ => True

/-! ## What a line does -/

variable {loads} {state target : State} {content : List UInt8} {id : ℕ}

theorem not_waits_endReader : ¬ state.endReader.waits id := by
  rintro ⟨future, hfuture, -⟩
  cases hfuture

theorem waits_resolve {own : Value} :
    (state.resolve own).waits id ↔ state.waits id ∧ own.equalsInt id = false := by
  apply Iff.intro
  · rintro ⟨future, hfuture, rfl, hwaits⟩
    obtain ⟨hmem, hother⟩ := List.mem_filter.mp hfuture
    exact ⟨⟨future, hmem, rfl, hwaits⟩, by simpa using hother⟩
  · rintro ⟨⟨future, hmem, rfl, hwaits⟩, hother⟩
    exact ⟨future, List.mem_filter.mpr ⟨hmem, by simpa using hother⟩, rfl, hwaits⟩

/-- A line that the reader does not survive ends it. -/
theorem read_of_not_survives (hsurvives : state.survives loads content = false) :
    state.read loads content = state.endReader := by
  unfold State.survives at hsurvives
  unfold State.read
  split
  · rfl
  next hlength =>
    rw [decide_eq_true (Nat.not_lt.mp hlength), Bool.true_and] at hsurvives
    split at hsurvives
    · rfl
    · cases hsurvives
    next message hloads =>
      split at hsurvives
      · rfl
      · cases hsurvives
      next own hrouted =>
        rw [Bool.or_eq_false_iff] at hsurvives
        simp only [hsurvives.1, hsurvives.2, Bool.false_eq_true, or_self, if_false]

/-- A line that the reader survives resolves calls at most. -/
theorem read_of_survives (hsurvives : state.survives loads content = true) :
    ∃ pending, state.read loads content = { state with pending := pending } := by
  unfold State.survives at hsurvives
  rw [Bool.and_eq_true, decide_eq_true_eq] at hsurvives
  obtain ⟨hlength, hsurvives⟩ := hsurvives
  unfold State.read
  rw [if_neg (Nat.not_lt.mpr hlength)]
  split at hsurvives
  · cases hsurvives
  · exact ⟨_, rfl⟩
  next message hloads =>
    split at hsurvives
    · cases hsurvives
    · exact ⟨_, rfl⟩
    next own hrouted =>
      rw [Bool.or_eq_true] at hsurvives
      rw [if_pos hsurvives]
      exact ⟨_, rfl⟩

/-- A response ends its call, also where it ends the reader. -/
theorem not_waits_of_response {message own : Value} (hlength : content.length ≤ maxLine)
    (hloads : loads content = .value message) (hrouted : routed message = .ok (.response own))
    (hown : own.equalsInt id = true) (hstep : step loads state (.line content) = some target) :
    ¬ target.waits id := by
  simp only [step] at hstep
  split at hstep
  · cases hstep
    unfold State.read
    rw [if_neg (Nat.not_lt.mpr hlength), hloads]
    simp only [hrouted]
    split
    · rw [waits_resolve, hown]
      exact fun hwaits => Bool.noConfusion hwaits.2
    · exact not_waits_endReader
  · cases hstep

/-! ## Steps that keep the guarantee -/

/-- The guarantee is one about the state: a response ends its call in every state. -/
theorem right_iff : Right loads state ↔
    (∀ id, state.waits id → state.reader.isRunning = true) ∧
      (state.reader = .ended → state.alive = false) := by
  apply Iff.intro
  · exact fun hright => ⟨hright.behind, hright.reported⟩
  · exact fun hsound => ⟨hsound.1, hsound.2, fun _ _ _ _ _ hlength hloads hrouted hown hstep =>
      not_waits_of_response hlength hloads hrouted hown hstep⟩

/-- With a reader that has not ended, no call waits in vain. -/
theorem right_of_isRunning (hrunning : state.reader.isRunning = true) : Right loads state := by
  rw [right_iff]
  apply And.intro
  · exact fun _ _ => hrunning
  · intro hended
    rw [hended] at hrunning
    cases hrunning

/-- The reader may end when the process has. -/
theorem right_endReader_iff : Right loads state.endReader ↔ state.alive = false := by
  rw [right_iff]
  apply Iff.intro
  · exact fun hsound => hsound.2 rfl
  · exact fun hdead => ⟨fun _ hwaits => absurd hwaits not_waits_endReader, fun _ => hdead⟩

/-- A reader that was cancelled belongs to a session that was closed, and before `start` there
is no process. -/
structure Wired (state : State) : Prop where
  closed : state.reader = .cancelled → state.process = .absent
  fresh : state.reader = .absent → state.process = .absent

theorem Wired.endReader : Wired state.endReader where
  closed hcancelled := by cases hcancelled
  fresh habsent := by cases habsent

/-- Every step keeps the reader and the process together. -/
theorem Wired.step {event : Event} (hwired : Wired state)
    (hstep : PendingCalls.step loads state event = some target) : Wired target := by
  cases event with
  | start | begins =>
    simp only [PendingCalls.step] at hstep
    split at hstep
    · cases hstep
      exact ⟨fun hcancelled => (by cases hcancelled), fun habsent => (by cases habsent)⟩
    · cases hstep
  | call =>
    simp only [PendingCalls.step] at hstep
    split at hstep
    · cases hstep
    · cases hstep
      exact ⟨hwired.closed, hwired.fresh⟩
  | abandon id =>
    cases hstep
    exact ⟨hwired.closed, hwired.fresh⟩
  | line content =>
    simp only [PendingCalls.step] at hstep
    split at hstep
    · cases hstep
      cases hsurvives : state.survives loads content with
      | false =>
        rw [read_of_not_survives hsurvives]
        exact Wired.endReader
      | true =>
        obtain ⟨pending, hread⟩ := read_of_survives hsurvives
        rw [hread]
        exact ⟨hwired.closed, hwired.fresh⟩
    · cases hstep
  | eof | unwinds =>
    simp only [PendingCalls.step] at hstep
    split at hstep
    · cases hstep
      exact Wired.endReader
    · cases hstep
  | exits =>
    simp only [PendingCalls.step] at hstep
    split at hstep
    next hrunning =>
      cases hstep
      have hspawned : state.process ≠ .absent := hrunning ▸ Process.noConfusion
      exact ⟨fun hcancelled => absurd (hwired.closed hcancelled) hspawned,
        fun habsent => absurd (hwired.fresh habsent) hspawned⟩
    · cases hstep
  | close =>
    cases hstep
    exact ⟨fun _ => rfl, fun _ => rfl⟩

/-- A step leads to a state with the guarantee exactly when it is careful. -/
theorem right_iff_careful {event : Event} (hright : Right loads state) (hwired : Wired state)
    (hstep : step loads state event = some target) :
    Right loads target ↔ Careful loads state event := by
  cases event with
  | start | begins =>
    simp only [step] at hstep
    split at hstep
    · cases hstep
      exact iff_of_true (right_of_isRunning rfl) trivial
    · cases hstep
  | call =>
    simp only [step] at hstep
    split at hstep
    · cases hstep
    next hspawned =>
      cases hstep
      apply Iff.intro
      · intro htarget hended
        have hrunning := htarget.behind (state.nextId + 1)
          ⟨_, List.mem_append_right _ (List.mem_singleton_self _), rfl, rfl⟩
        simp only [hended] at hrunning
        cases hrunning
      · intro hreader
        apply right_of_isRunning
        show state.reader.isRunning = true
        cases hcase : state.reader with
        | absent => exact absurd (hwired.fresh hcase) hspawned
        | ended => exact absurd hcase hreader
        | created | running | cancelled => rfl
  | abandon id =>
    cases hstep
    refine iff_of_true (right_iff.mpr ⟨?_, hright.reported⟩) trivial
    rintro other ⟨future, hfuture, rfl, hwaits⟩
    obtain ⟨own, hown, rfl⟩ := List.mem_map.mp hfuture
    apply hright.behind own.id
    split at hwaits
    · cases hwaits
    · exact ⟨own, hown, rfl, hwaits⟩
  | line content =>
    simp only [step] at hstep
    split at hstep
    next hrunning =>
      cases hstep
      cases hsurvives : state.survives loads content with
      | false =>
        rw [read_of_not_survives hsurvives, right_endReader_iff, Careful, hsurvives]
        simp
      | true =>
        obtain ⟨pending, hread⟩ := read_of_survives hsurvives
        rw [hread]
        exact iff_of_true (right_of_isRunning (congrArg Reader.isRunning hrunning))
          (.inl hsurvives)
    · cases hstep
  | eof =>
    simp only [step] at hstep
    split at hstep
    · cases hstep
      exact right_endReader_iff
    · cases hstep
  | exits =>
    simp only [step] at hstep
    split at hstep
    · cases hstep
      exact iff_of_true (right_iff.mpr ⟨hright.behind, fun _ => rfl⟩) trivial
    · cases hstep
  | close =>
    cases hstep
    rw [right_iff]
    apply Iff.intro
    · intro htarget hcreated id hwaits
      have hrunning := htarget.1 id hwaits
      simp only [State.close, hcreated] at hrunning
      cases hrunning
    · intro hcareful
      refine ⟨fun id hwaits => ?_, fun _ => rfl⟩
      have hrunning := hright.behind id hwaits
      cases hcase : state.reader with
      | created => exact absurd hwaits (hcareful hcase id)
      | absent | ended =>
        rw [hcase] at hrunning
        cases hrunning
      | running | cancelled => simp only [State.close, hcase, Reader.isRunning]
  | unwinds =>
    simp only [step] at hstep
    split at hstep
    next hcancelled =>
      cases hstep
      refine iff_of_true (right_endReader_iff.mpr ?_) trivial
      rw [State.alive, hwired.closed hcancelled]
      rfl
    · cases hstep

theorem right_init : Right loads (machine loads).init :=
  right_iff.mpr ⟨fun _ ⟨_, hfuture, _⟩ => absurd hfuture List.not_mem_nil, fun _ => rfl⟩

/-- Every state of a run has the guarantee exactly when every step of the run is careful. -/
theorem path_guaranteed_iff_careful (loads : List UInt8 → Loaded) (events : List Event) (state : State) :
    (machine loads).Path ((machine loads).LeadsTo (Right loads)) events state ↔
      (machine loads).Path (Careful loads) events state :=
  Machine.path_congr (P := fun state => Right loads state ∧ Wired state)
    ⟨right_init, fun _ => rfl, fun _ => rfl⟩
    (fun hP permitted hstep => ⟨permitted _ hstep, hP.2.step hstep⟩)
    fun hP hstep => by
      rw [← right_iff_careful hP.1 hP.2 hstep]
      exact ⟨fun hleads => hleads _ hstep, fun hright target hother =>
        Option.some.inj (hstep.symm.trans hother) ▸ hright⟩

/-- A long line ends the reader of a process that goes on, and the next call waits. -/
theorem path_of_long_line (hlong : maxLine < content.length) :
    (machine loads).Path Machine.anyStep [.start, .begins, .line content, .call]
      ⟨.running, .ended, [⟨1, true⟩], 1⟩ := by
  have hread : (⟨.running, .running, [], 0⟩ : State).read loads content =
      ⟨.running, .ended, [], 0⟩ := if_pos hlong
  have hbegun : (machine loads).Path Machine.anyStep [.start, .begins]
      ⟨.running, .running, [], 0⟩ := Machine.path_of_runFrom rfl
  have hline : (machine loads).Path Machine.anyStep ([Event.start, .begins] ++ [Event.line content])
      ⟨.running, .ended, [], 0⟩ := hbegun.extend trivial (congrArg some hread)
  exact hline.extend trivial rfl

/-- A call waits for a reader that a line of more than `64` KiB has ended. -/
theorem not_right_of_long_line :
    ¬ ∀ (loads : List UInt8 → Loaded) (events : List Event) (state : State),
      (machine loads).Path Machine.anyStep events state → Right loads state := by
  intro hclaim
  have hlong : maxLine < (List.replicate (maxLine + 1) (120 : UInt8)).length := by
    rw [List.length_replicate]
    exact Nat.lt_succ_self _
  have hrunning := (hclaim (fun _ => .decodeError) _ _ (path_of_long_line hlong)).behind 1 ⟨⟨1, true⟩, List.mem_singleton_self _, rfl, rfl⟩
  cases hrunning

end DbtCraft.Agent.PendingCalls

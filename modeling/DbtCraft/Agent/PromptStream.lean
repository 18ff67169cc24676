/-
# The stream of a prompt

`HarnessSession.prompt` of `app/harness.py`: one prompt at a time takes what the reader has put
in the queue of the session, and yields it until the agent is idle. What a prompt leaves in the
queue stays there. A notification says nothing of the prompt that it is for; here it carries it
as a ghost.
-/

import DbtCraft.Agent.ReadLoop
import DbtCraft.Math.Machine

namespace DbtCraft.Agent.PromptStream

open DbtCraft.Python DbtCraft.Math

/-- A notification, with the prompt that the harness emitted it for. -/
structure Notice where
  owner : Option ℕ
  message : Value

/-- An event, with the prompt that the harness emitted it for. -/
structure Emission where
  owner : Option ℕ
  event : AgentEvent

/-- The prompt that has the lock. -/
structure Turn where
  number : ℕ
  /-- The call of `session/prompt` has returned. -/
  answered : Bool
  yielded : List Emission

/-- A prompt that has ended. -/
structure Ended where
  number : ℕ
  yielded : List Emission
  /-- It ended because the agent is idle. -/
  idle : Bool

structure State where
  /-- `_events`; `none` is what the reader puts there when it ends. -/
  queue : List (Option Notice)
  /-- The reader is running. -/
  reading : Bool
  active : Option Turn
  ended : List Ended
  /-- The number of the next prompt. -/
  next : ℕ
  /-- What the harness has emitted. -/
  log : List Notice

/-- What happens to a session. -/
inductive Event
  | /-- A prompt takes the lock. -/
    prompt
  | /-- Its call of `session/prompt` returns. -/
    answered
  | /-- The reader decodes a message. -/
    line (owner : Option ℕ) (message : Value)
  | /-- The reader ends, with the stream, with an exception, or because the session is closed. -/
    readerEnds
  | /-- The prompt takes the first item of the queue. -/
    take
  | /-- The prompt ends before the agent is idle: the client disconnects, the time is over, or
    its call raises. -/
    leave

variable (shown : Value → String) (sessionId : String)

/-- The event of a notification of this session, which is what a prompt yields. -/
def visible (message : Value) : Option AgentEvent :=
  match normalize shown message with
  | .ok (some ⟨event, .none⟩) => some event
  | .ok (some ⟨event, session⟩) => if session.isText sessionId then some event else none
  | _ => none

/-- What a notification lets a prompt yield. -/
def emission (notice : Notice) : Option Emission :=
  (visible shown sessionId notice.message).map fun event => ⟨notice.owner, event⟩

/-- What an item of the queue lets a prompt yield. -/
def queued (item : Option Notice) : Option Emission := item.bind (emission shown sessionId)

/-- The events that the harness has emitted for a prompt on this session. -/
def emittedFor (log : List Notice) (number : ℕ) : List Emission :=
  (log.filterMap (emission shown sessionId)).filter fun emitted => emitted.owner = some number

/-- The agent has been idle for a prompt. -/
def closed (log : List Notice) (number : ℕ) : Bool :=
  (emittedFor shown sessionId log number).any fun emitted => emitted.event.isIdle

/-- What the harness emits for a prompt it emits after it has the prompt, and its idle on this
session is the last of it. -/
def proper (state : State) (owner : Option ℕ) (message : Value) : Bool :=
  match owner with
  | none => true
  | some number => number < state.next ∧
    ((visible shown sessionId message).isSome → !closed shown sessionId state.log number)

/-- The reader ends. -/
def State.endReader (state : State) : State :=
  { state with queue := state.queue ++ [none], reading := false }

/-- The reader puts a notification in the queue. -/
def State.put (state : State) (notice : Notice) : State :=
  { state with queue := state.queue ++ [some notice], log := state.log ++ [notice] }

/-- The prompt ends. -/
def State.finish (state : State) (turn : Turn) (idle : Bool) : State :=
  { state with active := none, ended := state.ended ++ [⟨turn.number, turn.yielded, idle⟩] }

/-- A call waits for its response. -/
def State.calling (state : State) : Bool :=
  match state.active with
  | none => false
  | some turn => !turn.answered

/-- What the reader does with a message: where a call is pending its id is looked up, and one
without a hash raises. -/
def State.read (state : State) (owner : Option ℕ) (message : Value) : State :=
  match routed message with
  | .error _ => state.endReader
  | .ok .notification => state.put ⟨owner, message⟩
  | .ok (.response id) => if state.calling ∧ !id.hashable then state.endReader else state

/-- What the prompt does with an item of the queue. -/
def State.handle (state : State) (turn : Turn) (item : Option Notice) : State :=
  match item with
  | none => state.finish turn false
  | some notice =>
    match normalize shown notice.message with
    | .error _ => state.finish turn false
    | .ok _ =>
      match emission shown sessionId notice with
      | none => state
      | some emitted =>
        let later : Turn := { turn with yielded := turn.yielded ++ [emitted] }
        if emitted.event.isIdle then state.finish later true
        else { state with active := some later }

/-- One step; a prompt that finds the lock taken raises and yields nothing. -/
def step (state : State) : Event → Option State
  | .prompt =>
    match state.active with
    | some _ => none
    | none => some { state with active := some ⟨state.next, false, []⟩, next := state.next + 1 }
  | .answered =>
    match state.active with
    | some turn =>
      if turn.answered then none
      else some { state with active := some { turn with answered := true } }
    | none => none
  | .line owner message =>
    if state.reading ∧ proper shown sessionId state owner message then
      some (state.read owner message)
    else none
  | .readerEnds => if state.reading then some state.endReader else none
  | .take =>
    match state.active, state.queue with
    | some turn, item :: rest =>
      if turn.answered then some ({ state with queue := rest }.handle shown sessionId turn item)
      else none
    | _, _ => none
  | .leave => state.active.map fun turn => state.finish turn false

/-- A session whose harness has started. -/
def machine : Machine State Event where
  init := ⟨[], true, none, [], 0, []⟩
  step := step shown sessionId

/-! ## The guarantee -/

/-- A prompt that the idle of the agent ended has yielded what the harness emitted for it, and
its idle last. -/
structure Ended.Complete (record : Ended) (log : List Notice) : Prop where
  all : record.yielded = emittedFor shown sessionId log record.number
  last : ∃ front emitted, record.yielded = front ++ [emitted] ∧ emitted.event.isIdle = true

/-- What the prompts have yielded is what the harness emitted for them: up to where a prompt is
or where it was cut short, and all of it where it ended because the agent is idle. -/
structure Right (state : State) : Prop where
  active : ∀ turn, state.active = some turn →
    turn.yielded <+: emittedFor shown sessionId state.log turn.number
  cut : ∀ record ∈ state.ended,
    record.yielded <+: emittedFor shown sessionId state.log record.number
  idle : ∀ record ∈ state.ended, record.idle = true → record.Complete shown sessionId state.log

/-- A prompt starts when nothing that it would yield is in the queue, and while it runs the
harness emits nothing that it would yield for another one. -/
def Undisturbed (state : State) : Event → Prop
  | .prompt => ∀ item ∈ state.queue, queued shown sessionId item = none
  | .line owner message => ∀ turn ∈ state.active,
      (visible shown sessionId message).isSome → owner = some turn.number
  | _ => True

instance : ∀ state event, Decidable (Undisturbed shown sessionId state event)
  | state, .prompt => inferInstanceAs (Decidable (∀ item ∈ state.queue, _))
  | state, .line _ _ => inferInstanceAs (Decidable (∀ turn ∈ state.active, _))
  | _, .answered => isTrue trivial
  | _, .readerEnds => isTrue trivial
  | _, .take => isTrue trivial
  | _, .leave => isTrue trivial

/-! ## What is in the queue -/

variable {shown sessionId} {log : List Notice} {notice : Notice} {number : ℕ} {state target : State}

theorem emittedFor_append (log later : List Notice) (number : ℕ) :
    emittedFor shown sessionId (log ++ later) number =
      emittedFor shown sessionId log number ++ emittedFor shown sessionId later number := by
  rw [emittedFor, List.filterMap_append, List.filter_append]
  rfl

/-- A notification that no prompt yields changes nothing. -/
theorem emittedFor_append_of_none (hnone : emission shown sessionId notice = none) :
    emittedFor shown sessionId (log ++ [notice]) number = emittedFor shown sessionId log number := by
  have hsingle : emittedFor shown sessionId [notice] number = [] := by
    rw [emittedFor, List.filterMap_cons_none hnone]
    rfl
  rw [emittedFor_append, hsingle, List.append_nil]

/-- A notification is emitted for its prompt only. -/
theorem emittedFor_append_of_some {emitted : Emission}
    (hemission : emission shown sessionId notice = some emitted) :
    emittedFor shown sessionId (log ++ [notice]) number =
      emittedFor shown sessionId log number ++ if emitted.owner = some number then [emitted] else [] := by
  have hsingle : emittedFor shown sessionId [notice] number =
      if emitted.owner = some number then [emitted] else [] := by
    rw [emittedFor, List.filterMap_cons_some hemission, List.filterMap_nil, List.filter_cons,
      List.filter_nil]
    simp only [decide_eq_true_eq]
  rw [emittedFor_append, hsingle]

/-- What was emitted stays emitted. -/
theorem prefix_emittedFor_append (later : List Notice) :
    emittedFor shown sessionId log number <+: emittedFor shown sessionId (log ++ later) number :=
  emittedFor_append log later number ▸ List.prefix_append _ _

theorem owner_of_emission {emitted : Emission}
    (hemission : emission shown sessionId notice = some emitted) :
    emitted.owner = notice.owner ∧ visible shown sessionId notice.message = some emitted.event := by
  obtain ⟨event, hvisible, rfl⟩ := Option.map_eq_some_iff.mp hemission
  exact ⟨rfl, hvisible⟩

/-- What is emitted for a prompt is emitted after its start and before its idle. -/
theorem open_of_proper {owner : Option ℕ} {message : Value}
    (hproper : proper shown sessionId state owner message = true)
    (hvisible : (visible shown sessionId message).isSome = true) (howner : owner = some number) :
    number < state.next ∧ closed shown sessionId state.log number = false := by
  subst howner
  simpa [proper, hvisible] using hproper

variable (shown sessionId) in
/-- The events in the queue. -/
def State.waiting (state : State) : List Emission :=
  state.queue.filterMap (queued shown sessionId)

theorem waiting_endReader : state.endReader.waiting shown sessionId = state.waiting shown sessionId := by
  rw [State.waiting, State.endReader, List.filterMap_append]
  exact List.append_nil _

theorem waiting_put :
    (state.put notice).waiting shown sessionId =
      state.waiting shown sessionId ++ (emission shown sessionId notice).toList := by
  rw [State.waiting, State.put, List.filterMap_append]
  cases hemission : emission shown sessionId notice with
  | none => simp [State.waiting, queued, hemission]
  | some emitted => simp [State.waiting, queued, hemission]

/-! ## What a step does -/

theorem read_cases (state : State) (owner : Option ℕ) (message : Value) :
    state.read owner message = state ∨ state.read owner message = state.endReader ∨
      state.read owner message = state.put ⟨owner, message⟩ := by
  unfold State.read
  split
  · exact .inr (.inl rfl)
  · exact .inr (.inr rfl)
  · split
    · exact .inr (.inl rfl)
    · exact .inl rfl

variable (shown sessionId) in
/-- An item ends the prompt, is passed over, or is yielded. -/
theorem handle_cases (state : State) (turn : Turn) (item : Option Notice) :
    state.handle shown sessionId turn item = state.finish turn false ∨
      (queued shown sessionId item = none ∧
        state.handle shown sessionId turn item = state) ∨
      ∃ emitted, queued shown sessionId item = some emitted ∧
        state.handle shown sessionId turn item =
          if emitted.event.isIdle then
            state.finish { turn with yielded := turn.yielded ++ [emitted] } true
          else { state with active := some { turn with yielded := turn.yielded ++ [emitted] } } := by
  unfold State.handle
  split
  · exact .inl rfl
  · split
    · exact .inl rfl
    · split
      next hemission => exact .inr (.inl ⟨hemission, rfl⟩)
      next emitted hemission => exact .inr (.inr ⟨emitted, hemission, rfl⟩)

/-! ## The invariant -/

/-- No event before the last one is the idle. -/
def IdleLast (emitted : List Emission) : Prop :=
  ∀ event ∈ emitted.dropLast, event.event.isIdle = false

/-- After an idle there is nothing. -/
theorem IdleLast.eq_nil {front back : List Emission} {emitted : Emission}
    (hlast : IdleLast (front ++ emitted :: back)) (hidle : emitted.event.isIdle = true) :
    back = [] := by
  cases back with
  | nil => rfl
  | cons next back =>
    have hbefore : emitted ∈ (front ++ emitted :: next :: back).dropLast := by
      rw [List.dropLast_append_of_ne_nil (List.cons_ne_nil _ _)]
      exact List.mem_append_right _ List.mem_cons_self
    rw [hlast emitted hbefore] at hidle
    cases hidle

/-- What holds while the prompts are not disturbed. -/
structure Invariant (shown : Value → String) (sessionId : String) (state : State) : Prop where
  number_lt : ∀ turn, state.active = some turn → turn.number < state.next
  unstarted : ∀ number, state.next ≤ number → emittedFor shown sessionId state.log number = []
  flow : ∀ turn, state.active = some turn →
    emittedFor shown sessionId state.log turn.number = turn.yielded ++ state.waiting shown sessionId
  last : ∀ number, IdleLast (emittedFor shown sessionId state.log number)
  cut : ∀ record ∈ state.ended,
    record.yielded <+: emittedFor shown sessionId state.log record.number
  idle : ∀ record ∈ state.ended, record.idle = true → record.Complete shown sessionId state.log

theorem Invariant.right (hinv : Invariant shown sessionId state) : Right shown sessionId state where
  active turn hturn := hinv.flow turn hturn ▸ List.prefix_append _ _
  cut := hinv.cut
  idle := hinv.idle

/-- The end of the reader yields nothing. -/
theorem Invariant.endReader (hinv : Invariant shown sessionId state) :
    Invariant shown sessionId state.endReader where
  number_lt := hinv.number_lt
  unstarted := hinv.unstarted
  flow turn hturn := (hinv.flow turn hturn).trans (congrArg _ waiting_endReader.symm)
  last := hinv.last
  cut := hinv.cut
  idle := hinv.idle

/-- A prompt can be cut short with whatever is in the queue. -/
theorem Invariant.finish (hinv : Invariant shown sessionId state) {turn : Turn}
    (hactive : state.active = some turn) (queue : List (Option Notice)) :
    Invariant shown sessionId ({ state with queue := queue }.finish turn false) where
  number_lt _ hturn := by cases hturn
  unstarted := hinv.unstarted
  flow _ hturn := by cases hturn
  last := hinv.last
  cut record hrecord := by
    rcases List.mem_append.mp hrecord with hold | hnew
    · exact hinv.cut record hold
    · rw [List.mem_singleton.mp hnew]
      exact hinv.right.active turn hactive
  idle record hrecord hidle := by
    rcases List.mem_append.mp hrecord with hold | hnew
    · exact hinv.idle record hold hidle
    · rw [List.mem_singleton.mp hnew] at hidle
      cases hidle

/-- A notification that no prompt yields can be put. -/
theorem Invariant.put_of_none (hinv : Invariant shown sessionId state)
    (hnone : emission shown sessionId notice = none) :
    Invariant shown sessionId (state.put notice) := by
  have hsame : ∀ number, emittedFor shown sessionId (state.put notice).log number =
      emittedFor shown sessionId state.log number :=
    fun number => emittedFor_append_of_none hnone
  have hwaiting : (state.put notice).waiting shown sessionId = state.waiting shown sessionId := by
    rw [waiting_put, hnone]
    exact List.append_nil _
  exact
    { number_lt := hinv.number_lt
      unstarted := fun number hnumber => (hsame number).trans (hinv.unstarted number hnumber)
      flow := fun turn hturn => by rw [hsame, hwaiting]; exact hinv.flow turn hturn
      last := fun number => by rw [hsame]; exact hinv.last number
      cut := fun record hrecord => by rw [hsame]; exact hinv.cut record hrecord
      idle := fun record hrecord hidle => by
        obtain ⟨hall, hlast⟩ := hinv.idle record hrecord hidle
        exact ⟨hall.trans (hsame _).symm, hlast⟩ }

/-- A prompt that the idle of the agent ended is closed. -/
theorem Ended.Complete.closed {record : Ended} (hcomplete : record.Complete shown sessionId log) :
    closed shown sessionId log record.number = true := by
  obtain ⟨front, emitted, hyielded, hidle⟩ := hcomplete.last
  rw [PromptStream.closed, ← hcomplete.all, hyielded]
  exact List.any_eq_true.mpr ⟨emitted, List.mem_append_right _ (List.mem_singleton_self _), hidle⟩

/-- A notification for the running prompt can be put. -/
theorem Invariant.put_of_some (hinv : Invariant shown sessionId state) {emitted : Emission}
    (hsome : emission shown sessionId notice = some emitted)
    (hproper : proper shown sessionId state notice.owner notice.message = true)
    (howner : ∀ turn, state.active = some turn → emitted.owner = some turn.number) :
    Invariant shown sessionId (state.put notice) := by
  have hemitted : ∀ number, emittedFor shown sessionId (state.put notice).log number =
      emittedFor shown sessionId state.log number ++
        if emitted.owner = some number then [emitted] else [] :=
    fun number => emittedFor_append_of_some hsome
  have hopen : ∀ number, emitted.owner = some number → number < state.next ∧
      closed shown sessionId state.log number = false := by
    intro number hnumber
    obtain ⟨hsame, hvisible⟩ := owner_of_emission hsome
    exact open_of_proper hproper (hvisible ▸ rfl) (hsame ▸ hnumber)
  exact
    { number_lt := hinv.number_lt
      unstarted := fun number hnumber => by
        have hother : emitted.owner ≠ some number :=
          fun hsame => absurd (hopen number hsame).1 (Nat.not_lt.mpr hnumber)
        rw [hemitted, if_neg hother, List.append_nil]
        exact hinv.unstarted number hnumber
      flow := fun turn hturn => by
        rw [hemitted, if_pos (howner turn hturn), waiting_put, hsome, hinv.flow turn hturn]
        exact List.append_assoc _ _ _
      last := fun number => by
        rw [hemitted]
        split
        next hsame =>
          intro event hevent
          rw [List.dropLast_concat] at hevent
          exact Bool.eq_false_iff.mpr fun hidle =>
            Bool.eq_false_iff.mp (hopen number hsame).2 (List.any_eq_true.mpr ⟨event, hevent, hidle⟩)
        · rw [List.append_nil]
          exact hinv.last number
      cut := fun record hrecord => (hinv.cut record hrecord).trans (prefix_emittedFor_append _)
      idle := fun record hrecord hidle => by
        have hcomplete := hinv.idle record hrecord hidle
        have hother : emitted.owner ≠ some record.number := by
          intro hsame
          have hclosed := (hopen _ hsame).2
          rw [hcomplete.closed] at hclosed
          cases hclosed
        refine ⟨?_, hcomplete.last⟩
        rw [hemitted, if_neg hother, List.append_nil]
        exact hcomplete.all }

theorem Invariant.read (hinv : Invariant shown sessionId state) {owner : Option ℕ} {message : Value}
    (hproper : proper shown sessionId state owner message = true)
    (howner : ∀ turn ∈ state.active,
      (visible shown sessionId message).isSome → owner = some turn.number) :
    Invariant shown sessionId (state.read owner message) := by
  rcases read_cases state owner message with hread | hread | hread
  · rw [hread]
    exact hinv
  · rw [hread]
    exact hinv.endReader
  · rw [hread]
    cases hemission : emission shown sessionId ⟨owner, message⟩ with
    | none => exact hinv.put_of_none hemission
    | some emitted =>
      obtain ⟨hsame, hvisible⟩ := owner_of_emission hemission
      apply hinv.put_of_some hemission hproper
      intro turn hturn
      rw [hsame]
      exact howner turn hturn (hvisible ▸ rfl)

theorem Invariant.handle (hinv : Invariant shown sessionId state) {turn : Turn}
    (hactive : state.active = some turn) {item : Option Notice} {rest : List (Option Notice)}
    (hqueue : state.queue = item :: rest) :
    Invariant shown sessionId
      (({ state with queue := rest } : State).handle shown sessionId turn item) := by
  have hflow := hinv.flow turn hactive
  rw [State.waiting, hqueue] at hflow
  rcases handle_cases shown sessionId { state with queue := rest } turn item
    with hends | ⟨hnone, hsame⟩ | ⟨emitted, hsome, hyields⟩
  · rw [hends]
    exact hinv.finish hactive rest
  · rw [hsame]
    rw [List.filterMap_cons_none hnone] at hflow
    exact { hinv with
      flow := fun other hother => by
        rw [← Option.some.inj (hactive.symm.trans hother)]
        exact hflow }
  · rw [List.filterMap_cons_some hsome] at hflow
    rw [hyields]
    split
    next hidle =>
      have hlast := hinv.last turn.number
      rw [hflow] at hlast
      rw [hlast.eq_nil hidle] at hflow
      exact
        { number_lt := fun _ hturn => by cases hturn
          unstarted := hinv.unstarted
          flow := fun _ hturn => by cases hturn
          last := hinv.last
          cut := fun record hrecord => by
            rcases List.mem_append.mp hrecord with hold | hnew
            · exact hinv.cut record hold
            · rw [List.mem_singleton.mp hnew]
              exact hflow ▸ List.prefix_refl _
          idle := fun record hrecord hidle' => by
            rcases List.mem_append.mp hrecord with hold | hnew
            · exact hinv.idle record hold hidle'
            · rw [List.mem_singleton.mp hnew]
              exact ⟨hflow.symm, turn.yielded, emitted, rfl, hidle⟩ }
    · exact { hinv with
        number_lt := fun other hother => by
          rw [← Option.some.inj hother]
          exact hinv.number_lt turn hactive
        flow := fun other hother => by
          rw [← Option.some.inj hother]
          exact hflow.trans (by rw [List.append_assoc]; rfl) }

/-- A prompt that starts with nothing to yield in the queue. -/
theorem Invariant.start (hinv : Invariant shown sessionId state)
    (hempty : ∀ item ∈ state.queue, queued shown sessionId item = none) :
    Invariant shown sessionId
      { state with active := some ⟨state.next, false, []⟩, next := state.next + 1 } where
  number_lt turn hturn := by
    rw [← Option.some.inj hturn]
    exact Nat.lt_succ_self _
  unstarted number hnumber := hinv.unstarted number (Nat.le_of_succ_le hnumber)
  flow turn hturn := by
    have hwaiting : state.waiting shown sessionId = [] := by
      rw [State.waiting, List.filterMap_eq_nil_iff]
      exact hempty
    rw [← Option.some.inj hturn]
    exact (hinv.unstarted _ (Nat.le_refl _)).trans hwaiting.symm
  last := hinv.last
  cut := hinv.cut
  idle := hinv.idle

theorem Invariant.step (hinv : Invariant shown sessionId state) {event : Event}
    (hundisturbed : Undisturbed shown sessionId state event)
    (hstep : PromptStream.step shown sessionId state event = some target) :
    Invariant shown sessionId target := by
  cases event with
  | prompt =>
    simp only [PromptStream.step] at hstep
    split at hstep
    · cases hstep
    · cases hstep
      exact hinv.start hundisturbed
  | answered =>
    simp only [PromptStream.step] at hstep
    split at hstep
    next turn hactive =>
      split at hstep
      · cases hstep
      · cases hstep
        exact { hinv with
          number_lt := fun other hother => by
            rw [← Option.some.inj hother]
            exact hinv.number_lt turn hactive
          flow := fun other hother => by
            rw [← Option.some.inj hother]
            exact hinv.flow turn hactive }
    · cases hstep
  | line owner message =>
    simp only [PromptStream.step] at hstep
    split at hstep
    next hallowed =>
      cases hstep
      exact hinv.read hallowed.2 hundisturbed
    · cases hstep
  | readerEnds =>
    simp only [PromptStream.step] at hstep
    split at hstep
    · cases hstep
      exact hinv.endReader
    · cases hstep
  | take =>
    simp only [PromptStream.step] at hstep
    split at hstep
    next turn item rest hactive hqueue =>
      split at hstep
      · cases hstep
        exact hinv.handle hactive hqueue
      · cases hstep
    · cases hstep
  | leave =>
    obtain ⟨turn, hactive, rfl⟩ := Option.map_eq_some_iff.mp hstep
    exact hinv.finish hactive state.queue

theorem Invariant.init : Invariant shown sessionId (machine shown sessionId).init where
  number_lt _ hturn := by cases hturn
  unstarted _ _ := rfl
  flow _ hturn := by cases hturn
  last _ _ hevent := absurd hevent List.not_mem_nil
  cut _ hrecord := absurd hrecord List.not_mem_nil
  idle _ hrecord := absurd hrecord List.not_mem_nil

/-- While the prompts are not disturbed, each yields what the harness emitted for it. -/
theorem right_of_undisturbed (shown : Value → String) (sessionId : String) (events : List Event)
    (state : State)
    (hpath : (machine shown sessionId).Path (Undisturbed shown sessionId) events state) :
    Right shown sessionId state :=
  (hpath.invariant Invariant.init fun hinv hundisturbed => hinv.step hundisturbed).right

/-- A prompt that runs until the agent is idle. -/
theorem right_of_one_prompt :
    ∃ state, (machine (fun _ => "") "s").runUnder (Undisturbed (fun _ => "") "s")
        (machine (fun _ => "") "s").init
        [.prompt, .answered, .line (some 0) (statusOf "s" "idle"), .take] = some state ∧
      state.ended.length = 1 ∧ Right (fun _ => "") "s" state := by
  have hrun : ∃ state, (machine (fun _ => "") "s").runUnder (Undisturbed (fun _ => "") "s")
        (machine (fun _ => "") "s").init
        [.prompt, .answered, .line (some 0) (statusOf "s" "idle"), .take] = some state ∧
      state.ended.length = 1 := ⟨_, rfl, rfl⟩
  obtain ⟨state, hrun, hended⟩ := hrun
  exact ⟨state, hrun, hended, right_of_undisturbed _ _ _ _ (Machine.path_of_runUnder hrun)⟩

/-- A client leaves prompt `0`; prompt `1` ends on the idle of prompt `0`. -/
theorem not_right_of_disconnect :
    ¬ ∀ (shown : Value → String) (sessionId : String) (events : List Event) (state : State),
      (machine shown sessionId).Path Machine.anyStep events state →
        Right shown sessionId state := by
  intro hclaim
  have hpath : (machine (fun _ => "") "s").Path Machine.anyStep
      [.prompt, .answered, .line (some 0) (statusOf "s" "running"), .take, .leave,
        .line (some 0) (statusOf "s" "idle"), .prompt, .answered, .take] _ :=
    Machine.path_of_runFrom rfl
  have hcut := (hclaim _ _ _ _ hpath).cut
    ⟨1, [⟨some 0, .status (.str "idle")⟩], true⟩ (List.mem_of_getLast? rfl)
  have hnone : [(⟨some 0, .status (.str "idle")⟩ : Emission)] <+: [] := hcut
  cases List.prefix_nil.mp hnone

end DbtCraft.Agent.PromptStream

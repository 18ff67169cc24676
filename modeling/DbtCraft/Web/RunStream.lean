/-
# Streaming dbt output in the browser

`useDbtRunStream` of the web client. The stream of a project lives outside of the
components: a command replaces the stream of the one before it and keeps its listeners.
An event is one turn of the event loop; a stream may be resumed with what it was waiting
for after it has been aborted, when the answer had come before. Messages are known by
their place in their stream.
-/

import DbtCraft.Math.Machine
import Mathlib.Logic.Function.Basic

namespace DbtCraft.Web.RunStream

open DbtCraft.Math

/-- How many messages wait for the next component. -/
def backgroundLimit : ℕ := 5000

/-- What `fetch` resolves with. -/
inductive Answer
  | ok
  | /-- `!response.ok`. -/
    refused
  | /-- `!response.body`. -/
    noBody
  deriving DecidableEq

/-- Where the asynchronous part of `sendCommand` is. -/
inductive Phase
  | /-- `getSession`. -/
    session
  | /-- `fetch`. -/
    fetching
  | answered (answer : Answer)
  | /-- `response.text()`, whose failure is ignored. -/
    errorBody
  | /-- `reader.read()`. -/
    reading
  | /-- `read` has resolved with a chunk of so many messages. -/
    holding (count : ℕ)
  | finished
  deriving DecidableEq

/-- `ActiveStream`, without its listeners. -/
structure Stream where
  phase : Phase := .session
  aborted : Bool := false
  backgroundMessages : List ℕ := []
  /-- How many messages have arrived. -/
  arrived : ℕ := 0
  deriving DecidableEq

/-- A run of the mount effect. -/
structure Component where
  id : ℕ
  /-- The effect has found a stream; its clean-up then removes the listener. -/
  subscribed : Bool
  deriving DecidableEq

/-- A call of `onMessage`. -/
structure Delivery where
  listener : ℕ
  stream : ℕ
  message : ℕ
  /-- Not replayed from the background. -/
  live : Bool
  /-- The component of the listener is mounted. -/
  mounted : Bool
  /-- The stream has not been replaced. -/
  current : Bool
  deriving DecidableEq

structure State where
  /-- How many commands have been sent; the last stream is the active one. -/
  sent : ℕ := 0
  streams : ℕ → Stream := fun _ => {}
  /-- The listeners that the streams share. -/
  listeners : List ℕ := []
  /-- How often the effect has run. -/
  mounts : ℕ := 0
  mounted : List Component := []
  deliveries : List Delivery := []

namespace State

variable (state : State)

def isMounted (id : ℕ) : Bool := state.mounted.any fun component => component.id = id

def setStream (stream : ℕ) (value : Stream) : State :=
  { state with streams := Function.update state.streams stream value }

def setPhase (stream : ℕ) (phase : Phase) : State :=
  state.setStream stream { state.streams stream with phase := phase }

/-- A call of the listener of a component. -/
def delivery (stream message : ℕ) (live : Bool) (listener : ℕ) : Delivery :=
  ⟨listener, stream, message, live, state.isMounted listener, decide (stream + 1 = state.sent)⟩

/-- `emitMessage` with the next message of a stream. -/
def emitMessage (stream : ℕ) : State :=
  let own := state.streams stream
  if state.listeners = [] then
    let messages := own.backgroundMessages ++ [own.arrived]
    state.setStream stream { own with
      backgroundMessages := if backgroundLimit < messages.length then messages.tail else messages
      arrived := own.arrived + 1 }
  else
    { state.setStream stream { own with arrived := own.arrived + 1 } with
      deliveries :=
        state.deliveries ++ state.listeners.map (state.delivery stream own.arrived true) }

/-- The messages of a chunk. -/
def emitMessages (stream : ℕ) : ℕ → State → State
  | 0, state => state
  | count + 1, state => emitMessages stream count (state.emitMessage stream)

/-- The mount effect. -/
def mount : State :=
  let id := state.mounts
  match state.sent with
  | 0 => { state with mounts := id + 1, mounted := state.mounted ++ [⟨id, false⟩] }
  | stream + 1 =>
    let joined : State := { state with
      mounts := id + 1
      mounted := state.mounted ++ [⟨id, true⟩]
      listeners := state.listeners ++ [id] }
    let own := state.streams stream
    { joined.setStream stream { own with backgroundMessages := [] } with
      deliveries := state.deliveries ++
        own.backgroundMessages.map fun message => joined.delivery stream message false id }

/-- The clean-up of the effect. -/
def unmount (component : Component) : State :=
  { state with
    mounted := state.mounted.erase component
    listeners := if component.subscribed then state.listeners.erase component.id
      else state.listeners }

/-- `controller.abort()`. -/
def abort (stream : ℕ) : State :=
  state.setStream stream { state.streams stream with aborted := true }

/-- `sendCommand` of a component; without a mounted one `listenerRef.current` is `null`. -/
def sendCommand (id : ℕ) : State :=
  let aborted := if state.sent = 0 then state else state.abort (state.sent - 1)
  { aborted with
    sent := state.sent + 1
    listeners :=
      if state.isMounted id && !state.listeners.contains id then state.listeners ++ [id]
      else state.listeners }

end State

inductive Event
  | mount
  | unmount (component : Component)
  | send (id : ℕ)
  | disconnect
  | /-- `getSession` resolves. -/
    session (stream : ℕ)
  | answer (stream : ℕ) (answer : Answer)
  | chunk (stream count : ℕ)
  | /-- The output ends. -/
    done (stream : ℕ)
  | /-- What a stream waits for is rejected, with another error than `AbortError`. -/
    fail (stream : ℕ)
  | /-- The continuation with what has been resolved; in `response.text()` also after it
    was rejected. -/
    resume (stream : ℕ)
  | /-- What an aborted stream waits for is rejected with `AbortError`. -/
    abortSeen (stream : ℕ)
  deriving DecidableEq

/-- A stream is resumed. -/
def resume (state : State) (stream : ℕ) : Option State :=
  match (state.streams stream).phase with
  | .answered .ok => some (state.setPhase stream .reading)
  | .answered .refused => some (state.setPhase stream .errorBody)
  | .answered .noBody | .errorBody =>
    some ((state.emitMessage stream).setPhase stream .finished)
  | .holding count => some ((State.emitMessages stream count state).setPhase stream .reading)
  | .session | .fetching | .reading | .finished => none

def step (state : State) : Event → Option State
  | .mount => some state.mount
  | .unmount component => if component ∈ state.mounted then some (state.unmount component) else none
  | .send id => some (state.sendCommand id)
  | .disconnect => if state.sent = 0 then some state else some (state.abort (state.sent - 1))
  | .session stream =>
    if stream < state.sent ∧ (state.streams stream).phase = .session then
      some (state.setPhase stream .fetching)
    else none
  | .answer stream answer =>
    if stream < state.sent ∧ (state.streams stream).phase = .fetching ∧
        (state.streams stream).aborted = false then
      some (state.setPhase stream (.answered answer))
    else none
  | .chunk stream count =>
    if stream < state.sent ∧ (state.streams stream).phase = .reading ∧
        (state.streams stream).aborted = false then
      some (state.setPhase stream (.holding count))
    else none
  | .done stream =>
    if stream < state.sent ∧ (state.streams stream).phase = .reading ∧
        (state.streams stream).aborted = false then
      some (state.setPhase stream .finished)
    else none
  | .fail stream =>
    if stream < state.sent ∧ ((state.streams stream).phase = .session ∨
        ((state.streams stream).phase = .fetching ∨ (state.streams stream).phase = .reading) ∧
          (state.streams stream).aborted = false) then
      some ((state.emitMessage stream).setPhase stream .finished)
    else none
  | .resume stream => if stream < state.sent then resume state stream else none
  | .abortSeen stream =>
    if stream < state.sent ∧ (state.streams stream).aborted = true ∧
        ((state.streams stream).phase = .fetching ∨ (state.streams stream).phase = .reading) then
      some (state.setPhase stream .finished)
    else none

def machine : Machine State Event where
  init := {}
  step := step

end DbtCraft.Web.RunStream

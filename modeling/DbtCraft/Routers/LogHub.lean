/-
# Live logs of dbt runs

`_DbtRunLogHub` of `app/routers/sse.py` and its readers: the generators of
`dbt_run_events_sse`. A generator is suspended at each of its `yield`s until the client
has taken what it was sent, so it is read at any speed, and it may be closed at each of
them. The pings of an idle stream are no events of the run and are left out.
-/

import DbtCraft.Math.Machine
import DbtCraft.Python.Dict
import Mathlib.Data.Finset.Basic

namespace DbtCraft.Routers.LogHub

open DbtCraft.Math DbtCraft.Python

/-- What `stream_dbt` publishes. -/
inductive Event
  | started (command : String)
  | output (line : String)
  | completed (returncode : ℤ) (status : Option String)
  | error (error : String)
  deriving DecidableEq

/-- `event.get("type")`. -/
def Event.type : Event → String
  | .started _ => "started"
  | .output _ => "output"
  | .completed _ _ => "completed"
  | .error _ => "error"

/-- `event.get("type") in {"completed", "error"}`. -/
def Event.isTerminal (event : Event) : Bool :=
  event.type = "completed" || event.type = "error"

/-- A run that has published these events has ended. -/
def Ends (events : List Event) : Prop := ∃ event ∈ events, event.isTerminal = true

instance (events : List Event) : Decidable (Ends events) :=
  inferInstanceAs (Decidable (∃ event ∈ events, event.isTerminal = true))

/-- How many events a buffer keeps. -/
def bufferLimit : ℕ := 5000

/-- The `maxsize` of a subscriber's queue. -/
def queueLimit : ℕ := 1000

/-! ## The hub -/

/-- `_DbtRunLogHub`. A queue is known by the number of its subscriber. -/
structure Hub where
  buffers : Dict String (List Event) := []
  queues : Dict String (Finset ℕ) := []
  terminal : Finset String := ∅

namespace Hub

variable (hub : Hub) (run : String)

/-- `self._buffers.get(run_id, [])`. -/
def buffer : List Event := (hub.buffers.get run).getD []

/-- `self._queues.get(run_id, set())`. -/
def listeners : Finset ℕ := (hub.queues.get run).getD ∅

/-- A buffer without the events that are over the limit. -/
def trim (buffer : List Event) : List Event := buffer.drop (buffer.length - bufferLimit)

/-- `publish`, as far as it writes to the buffer. -/
def append (event : Event) : Hub :=
  { hub with buffers := hub.buffers.set run (trim (hub.buffer run ++ [event])) }

/-- `publish`, as far as it marks the end of a run. -/
def close : Hub :=
  if hub.listeners run = ∅ then
    { hub with buffers := hub.buffers.pop run, terminal := hub.terminal.erase run }
  else { hub with terminal := insert run hub.terminal }

/-- `publish`, without the deliveries. -/
def publish (event : Event) : Hub :=
  if event.isTerminal then (hub.append run event).close run else hub.append run event

/-- `subscribe`, without its results. -/
def subscribe (queue : ℕ) : Hub :=
  { hub with queues := hub.queues.set run (insert queue (hub.listeners run)) }

/-- `unsubscribe`. -/
def unsubscribe (queue : ℕ) : Hub :=
  if hub.listeners run = ∅ then hub
  else if (hub.listeners run).erase queue = ∅ then
    let alone := { hub with queues := hub.queues.pop run }
    if run ∈ hub.terminal then
      { alone with buffers := hub.buffers.pop run, terminal := hub.terminal.erase run }
    else alone
  else { hub with queues := hub.queues.set run ((hub.listeners run).erase queue) }

end Hub

/-! ## Its readers -/

/-- Where the generator of a reader is suspended. -/
inductive Phase
  | /-- In the loop over the replay; `terminal` is the last result of `subscribe`. -/
    replaying (rest : List Event) (terminal : Bool)
  | /-- At the queue. -/
    waiting
  | /-- At the `yield` of an event from the queue. -/
    yielded (event : Event)
  | /-- It has returned. -/
    returned
  | /-- The client has gone before the end. -/
    disconnected
  deriving DecidableEq

/-- The generator will do nothing more. -/
def Phase.Gone (phase : Phase) : Prop := phase = .returned ∨ phase = .disconnected

instance (phase : Phase) : Decidable phase.Gone := inferInstanceAs (Decidable (_ ∨ _))

structure Subscriber where
  run : String
  /-- What `subscribe` returned. -/
  replay : List Event
  /-- How many events of the run had been published before. -/
  since : ℕ
  queue : List Event := []
  phase : Phase
  received : List Event := []

structure State where
  hub : Hub := {}
  subscribers : List Subscriber := []
  /-- All publications, in their order. -/
  history : List (String × Event) := []

/-- The events of a run. -/
def State.published (state : State) (run : String) : List Event :=
  (state.history.filter fun entry => entry.1 = run).map Prod.snd

inductive Action
  | publish (run : String) (event : Event)
  | subscribe (run : String)
  | /-- The client of a subscriber takes what comes next. -/
    read (index : ℕ)
  | disconnect (index : ℕ)

/-- `queue.put_nowait(event)`, where a full queue drops the event. -/
def Subscriber.put (subscriber : Subscriber) (event : Event) : Subscriber :=
  if subscriber.queue.length < queueLimit then
    { subscriber with queue := subscriber.queue ++ [event] }
  else subscriber

/-- The deliveries of `publish`: a run that ends without listeners has none. -/
def deliver (listeners : Finset ℕ) (event : Event) (subscribers : List Subscriber) :
    List Subscriber :=
  subscribers.mapIdx fun index subscriber =>
    if index ∈ listeners then subscriber.put event else subscriber

/-- The generator of a subscriber after it is resumed; `none` while it waits. -/
def Subscriber.resume (subscriber : Subscriber) : Option Subscriber :=
  match subscriber.phase with
  | .replaying (event :: rest) terminal =>
    some { subscriber with
      phase := .replaying rest terminal, received := subscriber.received ++ [event] }
  | .replaying [] true => some { subscriber with phase := .returned }
  | .replaying [] false => some { subscriber with phase := .waiting }
  | .waiting =>
    match subscriber.queue with
    | event :: rest =>
      some { subscriber with
        queue := rest, phase := .yielded event, received := subscriber.received ++ [event] }
    | [] => none
  | .yielded event =>
    some { subscriber with phase := if event.isTerminal then .returned else .waiting }
  | .returned | .disconnected => none

/-- The state after a subscriber has moved; one that has gone is unsubscribed by its
`finally` block. -/
def State.replace (state : State) (index : ℕ) (subscriber : Subscriber) : State :=
  { state with
    hub := if subscriber.phase.Gone then state.hub.unsubscribe subscriber.run index else state.hub
    subscribers := state.subscribers.set index subscriber }

/-- The state after a publication. -/
def State.publish (state : State) (run : String) (event : Event) : State where
  hub := state.hub.publish run event
  subscribers := deliver (state.hub.listeners run) event state.subscribers
  history := state.history ++ [(run, event)]

/-- The reader that `subscribe` makes. -/
def State.newcomer (state : State) (run : String) : Subscriber where
  run := run
  replay := state.hub.buffer run
  since := (state.published run).length
  phase := .replaying (state.hub.buffer run) (decide (run ∈ state.hub.terminal))

/-- The state after a subscription. -/
def State.subscribe (state : State) (run : String) : State :=
  { state with
    hub := state.hub.subscribe run state.subscribers.length
    subscribers := state.subscribers ++ [state.newcomer run] }

def step (state : State) : Action → Option State
  | .publish run event =>
    -- The terminal event of a run is its last.
    if Ends (state.published run) then none
    else some (state.publish run event)
  | .subscribe run => some (state.subscribe run)
  | .read index =>
    (state.subscribers[index]?).bind fun subscriber =>
      subscriber.resume.map (state.replace index)
  | .disconnect index =>
    (state.subscribers[index]?).bind fun subscriber =>
      if subscriber.phase.Gone then none
      else some (state.replace index { subscriber with phase := .disconnected })

/-- Nothing is published and nobody listens. -/
def machine : Machine State Action where
  init := {}
  step := step

end DbtCraft.Routers.LogHub

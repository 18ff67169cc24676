/-
# The session registry

`app/registry.py` of the agent and what `start`, `close` and `prompt` of `HarnessSession` do to
a session. An acquire keeps the lock of the registry while it waits for a harness to close or
to start; a harness is registered when its start is over, and it is busy when its prompt has
begun, which is later than the acquire that returned it.

Every `close` is taken as a point where others go on. The victims and the requests that a
session was returned to are ghosts.
-/

import DbtCraft.Math.Machine
import DbtCraft.Python.Dict
import Mathlib.Data.List.MinMax
import Mathlib.Logic.Function.Basic

namespace DbtCraft.Agent.SessionRegistry

open DbtCraft.Python DbtCraft.Math

universe uκ uφ

/-- The process of a session. -/
inductive Process
  | absent
  | running
  | exited
  deriving DecidableEq

/-- A `HarnessSession`. -/
structure Session (φ : Type uφ) where
  /-- The fingerprint of its model configuration. -/
  fingerprint : φ
  lastUsed : ℕ
  busy : Bool
  process : Process
  /-- The requests that it was returned to and that have not prompted yet. -/
  granted : ℕ

/-- `alive`. -/
def Session.alive {φ : Type uφ} (session : Session φ) : Bool := session.process = .running

/-- It answers no prompt and was returned to nobody who has not prompted yet. -/
def Session.free {φ : Type uφ} (session : Session φ) : Prop :=
  session.busy = false ∧ session.granted = 0

instance {φ : Type uφ} (session : Session φ) : Decidable session.free :=
  inferInstanceAs (Decidable (_ ∧ _))

/-- Where the acquire that has the lock waits. -/
inductive Phase (κ : Type uκ)
  | /-- The session with another configuration is closed. -/
    restarting
  | /-- The first loop of `_reclaim` closes a session. -/
    sweeping (now : ℕ) (closing : κ) (rest : List (κ × ℕ))
  | /-- The second loop of `_reclaim` closes a session. -/
    evicting (closing : κ)
  | /-- The session is started. -/
    starting (session : ℕ)

/-- The acquire that has the lock. -/
structure Acquire (κ : Type uκ) (φ : Type uφ) where
  key : κ
  fingerprint : φ
  phase : Phase κ

/-- The registry, and the sessions there have been by their number. -/
structure State (κ : Type uκ) (φ : Type uφ) where
  sessions : ℕ → Session φ
  /-- The number of the next session. -/
  next : ℕ
  /-- `_sessions`. -/
  registry : Dict κ ℕ
  holder : Option (Acquire κ φ)
  /-- What `shutdown` has still to close. -/
  doomed : List ℕ
  clock : ℕ
  /-- The sessions that an acquire has closed while they were not free. -/
  victims : List ℕ

/-- What happens. -/
inductive Event (κ : Type uκ) (φ : Type uφ)
  | /-- An acquire takes the lock. -/
    acquire (key : κ) (fingerprint : φ)
  | /-- The `close` that an acquire waits for returns. -/
    resume
  | /-- `start` spawns the harness. -/
    spawned
  | /-- `start` returns. -/
    started
  | /-- The acquire that has the lock raises where it waits. -/
    fails
  | /-- A request prompts the session that it was returned. -/
    prompt (session : ℕ)
  | /-- A request that was returned a session goes away. -/
    forgets (session : ℕ)
  | promptEnds (session : ℕ)
  | /-- A harness exits. -/
    crash (session : ℕ)
  | stop (key : κ)
  | shutdown
  | /-- `shutdown` closes the next session. -/
    closes (session : ℕ)
  | tick (seconds : ℕ)

section

variable {κ : Type uκ} {φ : Type uφ} [DecidableEq κ] [DecidableEq φ]

/-- A session changes. -/
def State.modify (state : State κ φ) (id : ℕ) (change : Session φ → Session φ) : State κ φ :=
  { state with sessions := Function.update state.sessions id (change (state.sessions id)) }

/-- `close`: the process is killed before anything is waited for. -/
def State.kill (state : State κ φ) (id : ℕ) : State κ φ :=
  state.modify id fun session => { session with process := .absent }

/-- An acquire closes a session. -/
def State.closeBy (state : State κ φ) (id : ℕ) : State κ φ :=
  { state.kill id with
    victims := if (state.sessions id).free then state.victims else id :: state.victims }

/-- `self._sessions.pop(key, None)`. -/
def State.unregister (state : State κ φ) (key : κ) : State κ φ :=
  { state with registry := state.registry.pop key }

/-- The harness of a session is live. -/
def State.live (state : State κ φ) (id : ℕ) : Prop := (state.sessions id).alive = true

instance (state : State κ φ) (id : ℕ) : Decidable (state.live id) :=
  inferInstanceAs (Decidable (_ = true))

/-- `max_sessions` and `idle_seconds`. -/
structure Settings where
  maxSessions : ℕ
  idleSeconds : ℕ

variable (settings : Settings)

/-- The sweep closes the session: it is not busy, and it is dead or has been idle too long. -/
def State.stale (state : State κ φ) (now : ℕ) (id : ℕ) : Bool :=
  let session := state.sessions id
  !session.busy && (!session.alive || settings.idleSeconds < now - session.lastUsed)

/-- What the sweep still has to look at, from the next session that it closes. -/
def State.toSweep (state : State κ φ) (now : ℕ) (items : List (κ × ℕ)) : List (κ × ℕ) :=
  items.dropWhile fun item => !state.stale settings now item.2

/-- The least recently used session that is not busy. -/
def State.leastRecent (state : State κ φ) : Option (κ × ℕ) :=
  (state.registry.filter fun item => !(state.sessions item.2).busy).argmin fun item =>
    (state.sessions item.2).lastUsed

/-- The second loop of `_reclaim`, and what follows it. -/
def State.evict (state : State κ φ) (key : κ) (fingerprint : φ) : State κ φ :=
  if state.registry.length < settings.maxSessions then
    { state with
      sessions := Function.update state.sessions state.next
        ⟨fingerprint, state.clock, false, .absent, 0⟩
      next := state.next + 1
      holder := some ⟨key, fingerprint, .starting state.next⟩ }
  else
    match state.leastRecent with
    | none => { state with holder := none }
    | some item => { state.closeBy item.2 with holder := some ⟨key, fingerprint, .evicting item.1⟩ }

/-- The first loop of `_reclaim` from an item on, and what follows it. -/
def State.sweep (state : State κ φ) (key : κ) (fingerprint : φ) (now : ℕ)
    (items : List (κ × ℕ)) : State κ φ :=
  match state.toSweep settings now items with
  | [] => state.evict settings key fingerprint
  | item :: rest =>
    { state.closeBy item.2 with holder := some ⟨key, fingerprint, .sweeping now item.1 rest⟩ }

/-- `_reclaim`, and what follows it. -/
def State.reclaim (state : State κ φ) (key : κ) (fingerprint : φ) : State κ φ :=
  state.sweep settings key fingerprint state.clock state.registry

/-- `acquire` with the lock, up to where it waits. -/
def State.acquire (state : State κ φ) (key : κ) (fingerprint : φ) : State κ φ :=
  match state.registry.get key with
  | none => state.reclaim settings key fingerprint
  | some id =>
    if (state.sessions id).alive then
      if (state.sessions id).fingerprint ≠ fingerprint then
        { state.closeBy id with holder := some ⟨key, fingerprint, .restarting⟩ }
      else
        state.modify id fun session =>
          { session with lastUsed := state.clock, granted := session.granted + 1 }
    else (state.unregister key).reclaim settings key fingerprint

/-- An acquire after the `close` that it waited for. -/
def State.resume (state : State κ φ) (acquire : Acquire κ φ) : Option (State κ φ) :=
  match acquire.phase with
  | .restarting =>
    some ((state.unregister acquire.key).reclaim settings acquire.key acquire.fingerprint)
  | .sweeping now closing rest =>
    some ((state.unregister closing).sweep settings acquire.key acquire.fingerprint now rest)
  | .evicting closing =>
    some ((state.unregister closing).evict settings acquire.key acquire.fingerprint)
  | .starting _ => none

/-- The session that is being started. -/
def State.starting (state : State κ φ) : Option (Acquire κ φ × ℕ) :=
  match state.holder with
  | some acquire =>
    match acquire.phase with
    | .starting id => some (acquire, id)
    | _ => none
  | none => none

/-- `shutdown`, up to where it waits: only a session that is live is waited for. -/
def State.shutdown (state : State κ φ) : State κ φ :=
  match (state.registry.map Prod.snd).dropWhile fun id => !(state.sessions id).alive with
  | [] => { state with registry := [] }
  | id :: rest => { state.kill id with registry := [], doomed := state.doomed ++ rest }

/-- One step; who needs the lock is refused while an acquire has it. -/
def step (state : State κ φ) : Event κ φ → Option (State κ φ)
  | .acquire key fingerprint =>
    match state.holder with
    | none => some (state.acquire settings key fingerprint)
    | some _ => none
  | .resume => state.holder.bind fun acquire => state.resume settings acquire
  | .spawned =>
    match state.starting with
    | some (_, id) =>
      if (state.sessions id).process = .absent then
        some (state.modify id fun session => { session with process := .running })
      else none
    | none => none
  | .started =>
    match state.starting with
    | some (acquire, id) =>
      if (state.sessions id).process = .absent then none
      else some
        { state.modify id fun session => { session with granted := session.granted + 1 } with
          registry := state.registry.set acquire.key id
          holder := none }
    | none => none
  | .fails => state.holder.map fun _ => { state with holder := none }
  | .prompt id =>
    if (state.sessions id).granted = 0 then none
    else some (state.modify id fun session =>
      if session.busy then { session with granted := session.granted - 1 }
      else { session with granted := session.granted - 1, busy := true, lastUsed := state.clock })
  | .forgets id =>
    if (state.sessions id).granted = 0 then none
    else some (state.modify id fun session => { session with granted := session.granted - 1 })
  | .promptEnds id =>
    if (state.sessions id).busy then
      some (state.modify id fun session => { session with busy := false, lastUsed := state.clock })
    else none
  | .crash id =>
    if (state.sessions id).alive then
      some (state.modify id fun session => { session with process := .exited })
    else none
  | .stop key =>
    match state.holder with
    | some _ => none
    | none =>
      match state.registry.get key with
      | none => some state
      | some id => some ((state.unregister key).kill id)
  | .shutdown =>
    match state.holder with
    | some _ => none
    | none => some state.shutdown
  | .closes id =>
    if id ∈ state.doomed then some { state.kill id with doomed := state.doomed.erase id } else none
  | .tick seconds => some { state with clock := state.clock + seconds }

/-- No session yet; a number that is not given out yet has no process. -/
def machine [Inhabited φ] : Machine (State κ φ) (Event κ φ) where
  init := ⟨fun _ => ⟨default, 0, false, .absent, 0⟩, 0, [], none, [], 0, []⟩
  step := step settings

/-! ## The guarantee -/

/-- A harness belongs to a session that is registered, or to the one that the acquire with the
lock is starting. -/
def State.Owned (state : State κ φ) (id : ℕ) : Prop :=
  (∃ key, (key, id) ∈ state.registry) ∨ ∃ acquire, state.starting = some (acquire, id)

/-- Every live harness belongs to a session, there are not more of them than slots, and no
acquire has closed a session that was not free. -/
structure Right (state : State κ φ) : Prop where
  owned : ∀ id, state.live id → state.Owned id
  capped : ∀ ids : List ℕ, ids.Nodup → (∀ id ∈ ids, state.live id) →
    ids.length ≤ settings.maxSessions
  spared : state.victims = []

/-- The second loop of `_reclaim` closes a session that is free, if any. -/
def State.EvictsFree (state : State κ φ) : Prop :=
  settings.maxSessions ≤ state.registry.length →
    ∀ item ∈ state.leastRecent, (state.sessions item.2).free

/-- `_reclaim` closes next a session that is free, if any. -/
def State.SweepsFree (state : State κ φ) (now : ℕ) (items : List (κ × ℕ)) : Prop :=
  match state.toSweep settings now items with
  | [] => state.EvictsFree settings
  | item :: _ => (state.sessions item.2).free

/-- An acquire closes first a session that is free, if any. -/
def State.AcquiresFree (state : State κ φ) (key : κ) (fingerprint : φ) : Prop :=
  match state.registry.get key with
  | none => state.SweepsFree settings state.clock state.registry
  | some id =>
    if (state.sessions id).alive then
      (state.sessions id).fingerprint ≠ fingerprint → (state.sessions id).free
    else (state.unregister key).SweepsFree settings state.clock (state.registry.pop key)

/-- An acquire that waited closes next a session that is free, if any. -/
def State.ResumesFree (state : State κ φ) (acquire : Acquire κ φ) : Prop :=
  match acquire.phase with
  | .restarting =>
    (state.unregister acquire.key).SweepsFree settings state.clock
      (state.registry.pop acquire.key)
  | .sweeping now closing rest => (state.unregister closing).SweepsFree settings now rest
  | .evicting closing => (state.unregister closing).EvictsFree settings
  | .starting _ => True

/-- A configuration is changed for a session that is free, `_reclaim` comes to sessions that
are free, a start fails before the harness is spawned or after it has exited, and `shutdown`
finds one live session at most. -/
def Careful (state : State κ φ) : Event κ φ → Prop
  | .acquire key fingerprint => state.AcquiresFree settings key fingerprint
  | .resume => ∀ acquire ∈ state.holder, state.ResumesFree settings acquire
  | .fails => ∀ pair ∈ state.starting, ¬ state.live pair.2
  | .shutdown => ∀ item ∈ state.registry, ∀ other ∈ state.registry,
    state.live item.2 → state.live other.2 → item.2 = other.2
  | _ => True

end

end DbtCraft.Agent.SessionRegistry

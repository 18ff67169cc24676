/-
# The global semaphores

`app/core/global_semaphore.py`: a counting semaphore over the processes of the
service, kept in one Redis sorted set whose members are the holders' tokens and
whose scores are the times at which their leases end. The dbt runs and the
console queries have one semaphore each.

One machine covers one semaphore. Its parties are the calls ever made on it; a
call draws a fresh token, so the call itself serves as the token. The clock is
the caller's own `time.time()`, which comes with the event, so the clocks of two
processes need not agree. A renewal is two events: the command with its score
leaves the process, and later, in any order with everything else, it reaches
Redis or is lost.
-/

import DbtCraft.Config
import DbtCraft.Math.Machine
import DbtCraft.Redis.SortedSet
import Mathlib.Data.Fintype.Basic

namespace DbtCraft.Core.GlobalSemaphore

open DbtCraft.Math DbtCraft.Redis

universe uι

/-- The context managers of the module. -/
inductive Caller
  | globalRunSemaphore
  | globalRunSemaphoreBlocking
  | globalQuerySemaphore
  deriving DecidableEq

/-- `LEASE_TTL_SECONDS`, the lease of every caller. -/
def leaseTtlSeconds : ℤ := 120

/-- The two sorted sets, `global:dbt_runs` and `global:dbt_queries`. -/
inductive Pool
  | dbtRuns
  | dbtQueries
  deriving DecidableEq

def Caller.pool : Caller → Pool
  | .globalRunSemaphore | .globalRunSemaphoreBlocking => .dbtRuns
  | .globalQuerySemaphore => .dbtQueries

/-- The limit that the callers of a pool pass to the script. -/
def Pool.limit (settings : Settings) : Pool → ℤ
  | .dbtRuns => settings.maxConcurrentDbtRuns
  | .dbtQueries => max 1 settings.maxConcurrentQueries

/-- Where one call is. -/
inductive Phase
  | idle
  | /-- Between two tries of the blocking semaphore. -/
    polling
  | /-- The script answered 1; the renewal task is not started yet. -/
    entering
  | /-- Inside the body, with the renewal task running. -/
    inside
  | /-- In the `finally` block, before `ZREM`. -/
    leaving
  | finished
  deriving DecidableEq

/-- The sorted set of one semaphore, the calls on it, and the renewals on their
way to Redis. -/
structure State (ι : Type uι) where
  leases : SortedSet ι
  phase : ι → Phase
  renewals : List (ι × ℤ)

/-- The atomic steps. -/
inductive Event (ι : Type uι)
  | /-- `_try_acquire` with the clock at `now`. -/
    tryAcquire (call : ι) (now : ℤ)
  | /-- The task is cancelled before the answer of the script arrives; `applied`
    tells whether the script still ran. -/
    cancelAcquire (call : ι) (now : ℤ) (applied : Bool)
  | /-- `max_wait_seconds` passed. -/
    giveUp (call : ι)
  | /-- The renewal task is started and the body entered. -/
    enter (call : ι)
  | /-- The task is cancelled before the body is entered. -/
    cancelEnter (call : ι)
  | /-- The renewal task sends `ZADD` with the clock at `now`. -/
    renew (call : ι) (now : ℤ)
  | /-- A renewal reaches Redis. -/
    renewed (call : ι) (score : ℤ)
  | /-- A renewal is lost. -/
    dropRenewal (call : ι) (score : ℤ)
  | /-- The body ends, by return or exception; the renewal task is cancelled. -/
    leave (call : ι)
  | /-- `ZREM`. -/
    release (call : ι)
  | /-- The task is cancelled in the `finally` block. -/
    cancelRelease (call : ι) (applied : Bool)
  | /-- The process of the call dies. -/
    crash (call : ι)
  deriving DecidableEq

variable {ι : Type uι} [DecidableEq ι]

/-- `_ACQUIRE_SCRIPT`: its answer and the sorted set it leaves. -/
def acquireScript (leases : SortedSet ι) (now lease limit : ℤ) (token : ι) :
    Bool × SortedSet ι :=
  let live := leases.remRangeByScore now
  if (live.card : ℤ) < limit then (true, live.add token lease) else (false, live)

def State.setPhase (state : State ι) (call : ι) (phase : Phase) : State ι :=
  { state with phase := Function.update state.phase call phase }

/-- What follows when the script answers 0. -/
def Caller.onRefusal : Caller → Phase
  | .globalRunSemaphore | .globalQuerySemaphore => .finished
  | .globalRunSemaphoreBlocking => .polling

/-- The phases in which a call asks for a slot. -/
def Phase.Asking (phase : Phase) : Prop := phase = .idle ∨ phase = .polling

instance (phase : Phase) : Decidable phase.Asking :=
  inferInstanceAs (Decidable (_ ∨ _))

/-- One atomic step of a semaphore. -/
def step (callers : ι → Caller) (limit : ℤ) (state : State ι) : Event ι → Option (State ι)
  | .tryAcquire call now =>
    if (state.phase call).Asking then
      let (acquired, leases) :=
        acquireScript state.leases now (now + leaseTtlSeconds) limit call
      some { state.setPhase call (if acquired then .entering else (callers call).onRefusal) with
        leases := leases }
    else none
  | .cancelAcquire call now applied =>
    if (state.phase call).Asking then
      some { state.setPhase call .finished with
        leases :=
          if applied then
            (acquireScript state.leases now (now + leaseTtlSeconds) limit call).2
          else state.leases }
    else none
  | .giveUp call =>
    if state.phase call = .polling then some (state.setPhase call .finished) else none
  | .enter call =>
    if state.phase call = .entering then some (state.setPhase call .inside) else none
  | .cancelEnter call =>
    -- The token stays a member until its lease ends.
    if state.phase call = .entering then some (state.setPhase call .finished) else none
  | .renew call now =>
    if state.phase call = .inside then
      some { state with renewals := (call, now + leaseTtlSeconds) :: state.renewals }
    else none
  | .renewed call score =>
    if (call, score) ∈ state.renewals then
      some { state with
        leases := state.leases.add call score
        renewals := state.renewals.erase (call, score) }
    else none
  | .dropRenewal call score =>
    if (call, score) ∈ state.renewals then
      some { state with renewals := state.renewals.erase (call, score) }
    else none
  | .leave call =>
    if state.phase call = .inside then some (state.setPhase call .leaving) else none
  | .release call =>
    if state.phase call = .leaving then
      some { state.setPhase call .finished with leases := state.leases.rem call }
    else none
  | .cancelRelease call applied =>
    if state.phase call = .leaving then
      some { state.setPhase call .finished with
        leases := if applied then state.leases.rem call else state.leases }
    else none
  | .crash call => some (state.setPhase call .finished)

/-- A semaphore nobody holds. -/
def machine (callers : ι → Caller) (limit : ℤ) : Machine (State ι) (Event ι) where
  init := ⟨.empty, fun _ => .idle, []⟩
  step := step callers limit

end DbtCraft.Core.GlobalSemaphore

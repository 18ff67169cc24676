/-
# The warm worker pool

`DbtWarmWorkerPool` and `_ProjectWorkerPool` of `app/services/dbt_worker.py` in
one runner process: the dbt processes, the pools they queue in, the registry of
pools, and the calls of `run` and `release_project` that act on them. Each step
ends at an `await` or at a look at one pool, and each `await` can be interrupted:
the task is cancelled there, or the awaited call raises.

Shutting the whole pool down is left out.
-/

import DbtCraft.Config
import DbtCraft.Math.Machine
import DbtCraft.Python.Dict
import Mathlib.Data.Finset.Basic
import Mathlib.Order.Defs.LinearOrder

namespace DbtCraft.Services.WarmPool

open DbtCraft.Math DbtCraft.Python

universe uπ uτ

/-- A `DbtWarmWorker` object, by the pool that made it. -/
structure Worker where
  pool : ℕ
  number : ℕ
  deriving DecidableEq

/-- What a task calls. -/
inductive Job (π : Type uπ)
  | run (project : π)
  | release (project : π) (cancel : Bool)

/-- The calls ever made on the pool, and its settings. -/
structure Deployment (π : Type uπ) (τ : Type uτ) where
  settings : Settings
  job : τ → Job π

variable {π : Type uπ} {τ : Type uτ}

def Deployment.workerCount (deployment : Deployment π τ) : ℕ :=
  deployment.settings.dbtWarmWorkerCount.toNat

def Deployment.capacity (deployment : Deployment π τ) : ℕ :=
  (max 1 (deployment.workerCount + deployment.settings.dbtWarmWorkerQueueSize)).toNat

def Deployment.idleAfter (deployment : Deployment π τ) : ℕ :=
  deployment.settings.dbtWarmWorkerIdleSeconds.toNat

def Deployment.maxProjects (deployment : Deployment π τ) : ℕ :=
  (max 1 deployment.settings.dbtWarmWorkerMaxProjects).toNat

/-- `worker.should_recycle()` after so many jobs. -/
def Deployment.shouldRecycle (deployment : Deployment π τ) (jobs : ℕ) : Bool :=
  decide (deployment.settings.dbtWarmWorkerRecycleJobs ≤ jobs)

/-- Where a task is. -/
inductive Phase (π : Type uπ)
  | idle
  | /-- In `_reclaim_pools`, with the rest of the snapshot of the registry. -/
    sweeping (rest : List (π × ℕ))
  | /-- In `_reclaim_pools`, stopping a popped pool, at this index of its workers. -/
    reclaiming (pool index : ℕ) (rest : List (π × ℕ))
  | /-- In `pool.start`, before `_start_lock`. -/
    entering (pool : ℕ)
  | /-- In the loop of `pool.start`; the worker is the one being started. -/
    starting (pool index : ℕ) (worker : Option Worker)
  | /-- In `pool.get`, waiting for a worker. -/
    waiting (pool : ℕ)
  | /-- In `worker.run`, before the request is written. -/
    preparing (pool : ℕ) (worker : Worker)
  | executing (pool : ℕ) (worker : Worker)
  | /-- In the `worker.stop` that follows an exception. -/
    failing (pool : ℕ) (worker : Worker)
  | /-- In the `worker.stop` of `pool.put`. -/
    recycling (pool : ℕ) (worker : Worker)
  | /-- In the `worker.start` of `pool.put`. -/
    restarting (pool : ℕ) (worker : Worker)
  | /-- In `release_project`, stopping the popped pool. -/
    releasing (pool index : ℕ)
  | finished
  deriving DecidableEq

/-- The contents of one `_ProjectWorkerPool`. The holder of `_start_lock` is the
task inside it. -/
structure Pool (τ : Type uτ) where
  workers : List Worker := []
  available : List Worker := []
  startLock : Option τ := none
  started : Bool := false

/-- `self._available.put(worker)`. -/
def Pool.queue (pool : Pool τ) (worker : Worker) : Pool τ :=
  { pool with available := pool.available ++ [worker] }

/-- One more worker of a starting pool is ready. -/
def Pool.append (pool : Pool τ) (worker : Worker) : Pool τ :=
  { pool.queue worker with workers := pool.workers ++ [worker] }

/-- The end of `pool.stop`. The queue keeps what it has. -/
def Pool.clear (pool : Pool τ) : Pool τ := { pool with workers := [], started := false }

/-- Where the tasks, the pools and the workers are. -/
structure Contents (π : Type uπ) (τ : Type uτ) where
  phase : τ → Phase π
  pool : ℕ → Pool τ
  /-- The project of each pool made so far. -/
  project : ℕ → Option π
  poolsMade : ℕ
  projectPools : Dict π ℕ
  /-- The workers whose process is alive. -/
  live : Finset Worker

structure State (π : Type uπ) (τ : Type uτ) extends Contents π τ where
  inUse : ℕ → ℕ
  lastUsed : ℕ → ℕ
  workersMade : ℕ
  jobsCompleted : Worker → ℕ
  /-- The free permits of `_capacity_sem`. -/
  permits : ℕ
  cancellations : π → ℕ
  now : ℕ

inductive Event (π : Type uπ) (τ : Type uτ)
  | /-- A call of `run` gets a permit. -/
    acquire (task : τ)
  | /-- A call ends before it did anything. -/
    giveUp (task : τ)
  | /-- The idle sweep looks at the next pool of its snapshot. -/
    sweep (task : τ)
  | /-- The least recently used pool is reclaimed. -/
    evict (task : τ) (victim : π)
  | /-- `_pool_for_project`, after the sweeps. -/
    choose (task : τ)
  | /-- The worker that a stopping pool is at has exited. -/
    stopWorker (task : τ)
  | /-- The end of `pool.stop`. -/
    stopped (task : τ)
  | /-- `pool.start` gets `_start_lock`. -/
    beginStart (task : τ)
  | /-- `worker.start` creates the process. -/
    spawn (task : τ)
  | /-- `worker.start` reads the ready line. -/
    ready (task : τ)
  | take (task : τ)
  | queueTimeout (task : τ)
  | /-- The request is written to the worker. -/
    submit (task : τ)
  | /-- The response arrives. -/
    complete (task : τ)
  | /-- The worker a run is stopping has exited. -/
    stopOwn (task : τ)
  | /-- The task is cancelled where it awaits, or what it awaits raises. -/
    interrupt (task : τ)
  | /-- A call of `release_project`. -/
    release (task : τ)
  | /-- A worker's process exits by itself. -/
    exit (worker : Worker)
  | tick
  deriving DecidableEq

/-- The task that takes a step. -/
def Event.actor : Event π τ → Option τ
  | .acquire task | .giveUp task | .sweep task | .evict task _ | .choose task
  | .stopWorker task | .stopped task | .beginStart task | .spawn task | .ready task | .take task
  | .queueTimeout task | .submit task | .complete task | .stopOwn task | .interrupt task
  | .release task => some task
  | .exit _ | .tick => none

def Deployment.project (deployment : Deployment π τ) (task : τ) : π :=
  match deployment.job task with
  | .run project | .release project _ => project

/-- Whether the task runs a command, with the pool enabled. -/
def Deployment.runs (deployment : Deployment π τ) (task : τ) : Bool :=
  match deployment.job task with
  | .run _ => deployment.settings.dbtWarmWorkerEnabled && decide (0 < deployment.workerCount)
  | .release _ _ => false

variable [DecidableEq τ]

def State.setPhase (state : State π τ) (task : τ) (phase : Phase π) : State π τ :=
  { state with phase := Function.update state.phase task phase }

/-- The end of `run`: the permit goes back. -/
def State.finish (state : State π τ) (task : τ) : State π τ :=
  { state.setPhase task .finished with permits := state.permits + 1 }

/-- `pool.get` after `pool.start`. -/
def State.enqueue (state : State π τ) (task : τ) (pool : ℕ) : State π τ :=
  { state.setPhase task (.waiting pool) with
    inUse := Function.update state.inUse pool (state.inUse pool + 1)
    lastUsed := Function.update state.lastUsed pool state.now }

/-- The `finally` block of `pool.put`, and the end of `run`. -/
def State.giveBack (state : State π τ) (task : τ) (pool : ℕ) : State π τ :=
  { state.finish task with
    inUse := Function.update state.inUse pool (state.inUse pool - 1)
    lastUsed := Function.update state.lastUsed pool state.now }

omit [DecidableEq τ] in
def State.setPool (state : State π τ) (pool : ℕ) (updated : Pool τ) : State π τ :=
  { state with pool := Function.update state.pool pool updated }

variable [LinearOrder π]

/-- The pools that `_reclaim_pools` may evict. -/
def State.Candidate (deployment : Deployment π τ) (state : State π τ) (task : τ)
    (entry : π × ℕ) : Prop :=
  entry.1 ≠ deployment.project task ∧ state.inUse entry.2 = 0

/-- The order of `min(candidates)`: the last use, then the project id. -/
def State.NoLater (state : State π τ) (entry other : π × ℕ) : Prop :=
  state.lastUsed entry.2 < state.lastUsed other.2 ∨
    state.lastUsed entry.2 = state.lastUsed other.2 ∧ entry.1 ≤ other.1

instance (deployment : Deployment π τ) (state : State π τ) (task : τ) (entry : π × ℕ) :
    Decidable (state.Candidate deployment task entry) :=
  inferInstanceAs (Decidable (_ ∧ _))

instance (state : State π τ) (entry other : π × ℕ) : Decidable (state.NoLater entry other) :=
  inferInstanceAs (Decidable (_ ∨ _))

/-- One step of the calls on the pool. -/
def step (deployment : Deployment π τ) (state : State π τ) : Event π τ → Option (State π τ)
  | .acquire task =>
    if state.phase task = .idle ∧ deployment.runs task ∧ 0 < state.permits then
      some { state.setPhase task
          (.sweeping (if 0 < deployment.idleAfter then state.projectPools else [])) with
        permits := state.permits - 1 }
    else none
  | .giveUp task =>
    if state.phase task = .idle then some (state.setPhase task .finished) else none
  | .sweep task =>
    match state.phase task with
    | .sweeping ((project, pool) :: rest) =>
      if state.Candidate deployment task (project, pool) ∧
          deployment.idleAfter ≤ state.now - state.lastUsed pool then
        some { state.setPhase task (.reclaiming pool 0 rest) with
          projectPools := state.projectPools.pop project }
      else some (state.setPhase task (.sweeping rest))
    | _ => none
  | .evict task victim =>
    match state.phase task, state.projectPools.get victim with
    | .sweeping [], some pool =>
      if deployment.maxProjects ≤ state.projectPools.length ∧
          state.Candidate deployment task (victim, pool) ∧
          ∀ entry ∈ state.projectPools, state.Candidate deployment task entry →
            state.NoLater (victim, pool) entry then
        some { state.setPhase task (.reclaiming pool 0 []) with
          projectPools := state.projectPools.pop victim }
      else none
    | _, _ => none
  | .choose task =>
    match state.phase task with
    | .sweeping [] =>
      if deployment.maxProjects ≤ state.projectPools.length ∧
          ∃ entry ∈ state.projectPools, state.Candidate deployment task entry then none
      else
        match state.projectPools.get (deployment.project task) with
        | some pool => some (state.setPhase task (.entering pool))
        | none =>
          some { state.setPhase task (.entering state.poolsMade) with
            pool := Function.update state.pool state.poolsMade {}
            inUse := Function.update state.inUse state.poolsMade 0
            lastUsed := Function.update state.lastUsed state.poolsMade state.now
            project := Function.update state.project state.poolsMade
              (some (deployment.project task))
            poolsMade := state.poolsMade + 1
            projectPools :=
              state.projectPools.set (deployment.project task) state.poolsMade }
    | _ => none
  | .stopWorker task =>
    match state.phase task with
    | .reclaiming pool index rest =>
      ((state.pool pool).workers[index]?).map fun worker =>
        { state.setPhase task (.reclaiming pool (index + 1) rest) with
          live := state.live.erase worker }
    | .releasing pool index =>
      ((state.pool pool).workers[index]?).map fun worker =>
        { state.setPhase task (.releasing pool (index + 1)) with
          live := state.live.erase worker }
    | _ => none
  | .stopped task =>
    match state.phase task with
    | .reclaiming pool index rest =>
      if (state.pool pool).workers.length ≤ index then
        some ((state.setPool pool (state.pool pool).clear).setPhase task (.sweeping rest))
      else none
    | .releasing pool index =>
      if (state.pool pool).workers.length ≤ index then
        some ((state.setPool pool (state.pool pool).clear).setPhase task .finished)
      else none
    | _ => none
  | .beginStart task =>
    match state.phase task with
    | .entering pool =>
      if (state.pool pool).startLock = none then
        if (state.pool pool).started then some (state.enqueue task pool)
        else
          some ((state.setPool pool { state.pool pool with startLock := some task }).setPhase task
            (.starting pool 0 none))
      else none
    | _ => none
  | .spawn task =>
    match state.phase task with
    | .starting pool index none =>
      some { state.setPhase task (.starting pool index (some ⟨pool, state.workersMade⟩)) with
        live := insert ⟨pool, state.workersMade⟩ state.live
        workersMade := state.workersMade + 1 }
    | .preparing _ worker | .restarting _ worker =>
      if worker ∈ state.live then none
      else some { state with live := insert worker state.live }
    | _ => none
  | .ready task =>
    match state.phase task with
    | .starting pool index (some worker) =>
      if worker ∈ state.live then
        if index + 1 < deployment.workerCount then
          some ((state.setPool pool ((state.pool pool).append worker)).setPhase task
            (.starting pool (index + 1) none))
        else
          some ((state.setPool pool
            { (state.pool pool).append worker with startLock := none, started := true }).enqueue
              task pool)
      else none
    | .restarting pool worker =>
      if worker ∈ state.live then
        some { (state.setPool pool ((state.pool pool).queue worker)).giveBack task pool with
          jobsCompleted := Function.update state.jobsCompleted worker 0 }
      else none
    | _ => none
  | .take task =>
    match state.phase task with
    | .waiting pool =>
      match (state.pool pool).available with
      | worker :: rest =>
        some ((state.setPool pool { state.pool pool with available := rest }).setPhase task
          (.preparing pool worker))
      | [] => none
    | _ => none
  | .queueTimeout task =>
    match state.phase task with
    | .waiting pool =>
      some { state.finish task with
        inUse := Function.update state.inUse pool (state.inUse pool - 1) }
    | _ => none
  | .submit task =>
    match state.phase task with
    | .preparing pool worker =>
      if worker ∈ state.live then some (state.setPhase task (.executing pool worker)) else none
    | _ => none
  | .complete task =>
    match state.phase task with
    | .executing pool worker =>
      let jobs := state.jobsCompleted worker + 1
      if deployment.shouldRecycle jobs then
        some { state.setPhase task (.recycling pool worker) with
          jobsCompleted := Function.update state.jobsCompleted worker jobs }
      else
        some { (state.setPool pool ((state.pool pool).queue worker)).giveBack task pool with
          jobsCompleted := Function.update state.jobsCompleted worker jobs }
    | _ => none
  | .stopOwn task =>
    match state.phase task with
    | .failing pool worker =>
      some { state.setPhase task (.recycling pool worker) with live := state.live.erase worker }
    | .recycling pool worker =>
      some { state.setPhase task (.restarting pool worker) with live := state.live.erase worker }
    | _ => none
  | .interrupt task =>
    match state.phase task with
    -- The permit is taken, and the `try` that gives it back not yet entered.
    | .reclaiming _ _ _ => some (state.setPhase task .finished)
    | .entering _ => some (state.finish task)
    | .starting pool _ _ =>
      some ((state.setPool pool { state.pool pool with startLock := none }).finish task)
    -- Only a timeout takes `in_use` down again.
    | .waiting _ => some (state.finish task)
    | .preparing pool worker | .executing pool worker =>
      some (state.setPhase task (.failing pool worker))
    -- The `finally` block recycles the worker whether or not it was stopped.
    | .failing pool worker => some (state.setPhase task (.recycling pool worker))
    | .recycling pool _ | .restarting pool _ => some (state.giveBack task pool)
    | .releasing _ _ => some (state.setPhase task .finished)
    | _ => none
  | .release task =>
    match state.phase task, deployment.job task with
    | .idle, .release project cancel =>
      let cancellations :=
        if cancel then
          Function.update state.cancellations project (state.cancellations project + 1)
        else state.cancellations
      match state.projectPools.get project with
      | some pool =>
        some { state.setPhase task (.releasing pool 0) with
          projectPools := state.projectPools.pop project
          cancellations := cancellations }
      | none => some { state.setPhase task .finished with cancellations := cancellations }
    | _, _ => none
  | .exit worker =>
    if worker ∈ state.live then some { state with live := state.live.erase worker } else none
  | .tick => some { state with now := state.now + 1 }

/-- No pool, and every permit free. -/
def machine (deployment : Deployment π τ) : Machine (State π τ) (Event π τ) where
  init := {
    phase := fun _ => .idle
    pool := fun _ => {}
    inUse := fun _ => 0
    lastUsed := fun _ => 0
    project := fun _ => none
    poolsMade := 0
    workersMade := 0
    projectPools := []
    live := ∅
    jobsCompleted := fun _ => 0
    permits := deployment.capacity
    cancellations := fun _ => 0
    now := 0 }
  step := step deployment

/-! ## What a step does -/

/-- The steps there are, each with what holds where it is taken. -/
inductive Stepped (deployment : Deployment π τ) (state : State π τ) : Event π τ → State π τ → Prop
  | acquire {task} (hphase : state.phase task = .idle) (hruns : deployment.runs task = true)
      (hpermits : 0 < state.permits) :
      Stepped deployment state (.acquire task) { state.setPhase task
          (.sweeping (if 0 < deployment.idleAfter then state.projectPools else [])) with
        permits := state.permits - 1 }
  | giveUp {task} (hphase : state.phase task = .idle) :
      Stepped deployment state (.giveUp task) (state.setPhase task .finished)
  | reclaim {task project pool rest} (hphase : state.phase task = .sweeping ((project, pool) :: rest))
      (hcandidate : state.Candidate deployment task (project, pool))
      (hidle : deployment.idleAfter ≤ state.now - state.lastUsed pool) :
      Stepped deployment state (.sweep task) { state.setPhase task (.reclaiming pool 0 rest) with
        projectPools := state.projectPools.pop project }
  | sweep {task entry rest} (hphase : state.phase task = .sweeping (entry :: rest)) :
      Stepped deployment state (.sweep task) (state.setPhase task (.sweeping rest))
  | evict {task victim pool} (hphase : state.phase task = .sweeping [])
      (hget : state.projectPools.get victim = some pool)
      (hcandidate : state.Candidate deployment task (victim, pool)) :
      Stepped deployment state (.evict task victim)
        { state.setPhase task (.reclaiming pool 0 []) with
          projectPools := state.projectPools.pop victim }
  | choose {task pool} (hphase : state.phase task = .sweeping [])
      (hget : state.projectPools.get (deployment.project task) = some pool) :
      Stepped deployment state (.choose task) (state.setPhase task (.entering pool))
  | openPool {task} (hphase : state.phase task = .sweeping [])
      (hget : state.projectPools.get (deployment.project task) = none) :
      Stepped deployment state (.choose task)
        { state.setPhase task (.entering state.poolsMade) with
          pool := Function.update state.pool state.poolsMade {}
          inUse := Function.update state.inUse state.poolsMade 0
          lastUsed := Function.update state.lastUsed state.poolsMade state.now
          project := Function.update state.project state.poolsMade
            (some (deployment.project task))
          poolsMade := state.poolsMade + 1
          projectPools := state.projectPools.set (deployment.project task) state.poolsMade }
  | stopReclaimed {task pool index rest worker}
      (hphase : state.phase task = .reclaiming pool index rest)
      (hworker : (state.pool pool).workers[index]? = some worker) :
      Stepped deployment state (.stopWorker task)
        { state.setPhase task (.reclaiming pool (index + 1) rest) with
          live := state.live.erase worker }
  | stopReleased {task pool index worker} (hphase : state.phase task = .releasing pool index)
      (hworker : (state.pool pool).workers[index]? = some worker) :
      Stepped deployment state (.stopWorker task)
        { state.setPhase task (.releasing pool (index + 1)) with live := state.live.erase worker }
  | reclaimed {task pool index rest} (hphase : state.phase task = .reclaiming pool index rest)
      (hend : (state.pool pool).workers.length ≤ index) :
      Stepped deployment state (.stopped task)
        ((state.setPool pool (state.pool pool).clear).setPhase task (.sweeping rest))
  | released {task pool index} (hphase : state.phase task = .releasing pool index)
      (hend : (state.pool pool).workers.length ≤ index) :
      Stepped deployment state (.stopped task)
        ((state.setPool pool (state.pool pool).clear).setPhase task .finished)
  | enter {task pool} (hphase : state.phase task = .entering pool)
      (hstarted : (state.pool pool).started = true) :
      Stepped deployment state (.beginStart task) (state.enqueue task pool)
  | beginStart {task pool} (hphase : state.phase task = .entering pool)
      (hfree : (state.pool pool).startLock = none)
      (hunstarted : (state.pool pool).started = false) :
      Stepped deployment state (.beginStart task)
        ((state.setPool pool { state.pool pool with startLock := some task }).setPhase task
          (.starting pool 0 none))
  | spawn {task pool index} (hphase : state.phase task = .starting pool index none) :
      Stepped deployment state (.spawn task)
        { state.setPhase task (.starting pool index (some ⟨pool, state.workersMade⟩)) with
          live := insert ⟨pool, state.workersMade⟩ state.live
          workersMade := state.workersMade + 1 }
  | revive {task pool worker}
      (hphase : state.phase task = .preparing pool worker ∨ state.phase task = .restarting pool worker)
      (hdead : worker ∉ state.live) :
      Stepped deployment state (.spawn task) { state with live := insert worker state.live }
  | readyMore {task pool index worker}
      (hphase : state.phase task = .starting pool index (some worker)) (hlive : worker ∈ state.live)
      (hmore : index + 1 < deployment.workerCount) :
      Stepped deployment state (.ready task)
        ((state.setPool pool ((state.pool pool).append worker)).setPhase task
          (.starting pool (index + 1) none))
  | readyLast {task pool index worker}
      (hphase : state.phase task = .starting pool index (some worker))
      (hlive : worker ∈ state.live) :
      Stepped deployment state (.ready task)
        ((state.setPool pool
          { (state.pool pool).append worker with startLock := none, started := true }).enqueue
            task pool)
  | restarted {task pool worker} (hphase : state.phase task = .restarting pool worker)
      (hlive : worker ∈ state.live) :
      Stepped deployment state (.ready task)
        { (state.setPool pool ((state.pool pool).queue worker)).giveBack task pool with
          jobsCompleted := Function.update state.jobsCompleted worker 0 }
  | take {task pool worker rest} (hphase : state.phase task = .waiting pool)
      (havailable : (state.pool pool).available = worker :: rest) :
      Stepped deployment state (.take task)
        ((state.setPool pool { state.pool pool with available := rest }).setPhase task
          (.preparing pool worker))
  | queueTimeout {task pool} (hphase : state.phase task = .waiting pool) :
      Stepped deployment state (.queueTimeout task) { state.finish task with
        inUse := Function.update state.inUse pool (state.inUse pool - 1) }
  | submit {task pool worker} (hphase : state.phase task = .preparing pool worker)
      (hlive : worker ∈ state.live) :
      Stepped deployment state (.submit task) (state.setPhase task (.executing pool worker))
  | recycle {task pool worker} (hphase : state.phase task = .executing pool worker) :
      Stepped deployment state (.complete task) { state.setPhase task (.recycling pool worker) with
        jobsCompleted :=
          Function.update state.jobsCompleted worker (state.jobsCompleted worker + 1) }
  | complete {task pool worker} (hphase : state.phase task = .executing pool worker) :
      Stepped deployment state (.complete task)
        { (state.setPool pool ((state.pool pool).queue worker)).giveBack task pool with
          jobsCompleted :=
            Function.update state.jobsCompleted worker (state.jobsCompleted worker + 1) }
  | stopFailing {task pool worker} (hphase : state.phase task = .failing pool worker) :
      Stepped deployment state (.stopOwn task) { state.setPhase task (.recycling pool worker) with
        live := state.live.erase worker }
  | stopRecycling {task pool worker} (hphase : state.phase task = .recycling pool worker) :
      Stepped deployment state (.stopOwn task) { state.setPhase task (.restarting pool worker) with
        live := state.live.erase worker }
  | abandonReclaim {task pool index rest}
      (hphase : state.phase task = .reclaiming pool index rest) :
      Stepped deployment state (.interrupt task) (state.setPhase task .finished)
  | abandonRelease {task pool index} (hphase : state.phase task = .releasing pool index) :
      Stepped deployment state (.interrupt task) (state.setPhase task .finished)
  | abandonStart {task pool index worker}
      (hphase : state.phase task = .starting pool index worker) :
      Stepped deployment state (.interrupt task)
        ((state.setPool pool { state.pool pool with startLock := none }).finish task)
  | abandonEntry {task pool} (hphase : state.phase task = .entering pool) :
      Stepped deployment state (.interrupt task) (state.finish task)
  | abandonWait {task pool} (hphase : state.phase task = .waiting pool) :
      Stepped deployment state (.interrupt task) (state.finish task)
  | fail {task pool worker}
      (hphase : state.phase task = .preparing pool worker ∨ state.phase task = .executing pool worker) :
      Stepped deployment state (.interrupt task) (state.setPhase task (.failing pool worker))
  | abandonStop {task pool worker} (hphase : state.phase task = .failing pool worker) :
      Stepped deployment state (.interrupt task) (state.setPhase task (.recycling pool worker))
  | abandonPut {task pool worker}
      (hphase : state.phase task = .recycling pool worker ∨ state.phase task = .restarting pool worker) :
      Stepped deployment state (.interrupt task) (state.giveBack task pool)
  | release {task project cancel pool} (hphase : state.phase task = .idle)
      (hjob : deployment.job task = .release project cancel)
      (hget : state.projectPools.get project = some pool) :
      Stepped deployment state (.release task) { state.setPhase task (.releasing pool 0) with
        projectPools := state.projectPools.pop project
        cancellations := if cancel then
          Function.update state.cancellations project (state.cancellations project + 1)
        else state.cancellations }
  | releaseNone {task project cancel} (hphase : state.phase task = .idle)
      (hjob : deployment.job task = .release project cancel) :
      Stepped deployment state (.release task) { state.setPhase task .finished with
        cancellations := if cancel then
          Function.update state.cancellations project (state.cancellations project + 1)
        else state.cancellations }
  | exit {worker} (hlive : worker ∈ state.live) :
      Stepped deployment state (.exit worker) { state with live := state.live.erase worker }
  | tick : Stepped deployment state .tick { state with now := state.now + 1 }

variable {deployment : Deployment π τ} {state next : State π τ} {event : Event π τ}

/-- A step of the pool is one of them. -/
theorem stepped_of_step (hstep : step deployment state event = some next) :
    Stepped deployment state event next := by
  cases event with
  | acquire task =>
    simp only [step] at hstep
    split at hstep <;> cases hstep
    next h => exact .acquire h.1 h.2.1 h.2.2
  | stopWorker task =>
    simp only [step] at hstep
    split at hstep
    next hphase =>
      obtain ⟨worker, hworker, rfl⟩ := Option.map_eq_some_iff.mp hstep
      exact .stopReclaimed hphase hworker
    next hphase =>
      obtain ⟨worker, hworker, rfl⟩ := Option.map_eq_some_iff.mp hstep
      exact .stopReleased hphase hworker
    · cases hstep
  | sweep task =>
    simp only [step] at hstep
    split at hstep
    next hphase =>
      split at hstep <;> cases hstep
      next h => exact .reclaim hphase h.1 h.2
      · exact .sweep hphase
    · cases hstep
  | evict task victim =>
    simp only [step] at hstep
    split at hstep
    next hphase hget =>
      split at hstep <;> cases hstep
      next h => exact .evict hphase hget h.2.1
    · cases hstep
  | tick =>
    cases hstep
    exact .tick
  | release task =>
    simp only [step] at hstep
    split at hstep
    next hphase hjob =>
      split at hstep <;> cases hstep
      next hget => exact .release hphase hjob hget
      · exact .releaseNone hphase hjob
    · cases hstep
  | giveUp task | choose task | stopped task | beginStart task | spawn task | ready task
  | take task | queueTimeout task | submit task | complete task | stopOwn task | interrupt task
  | exit worker =>
    simp only [step] at hstep
    repeat' split at hstep
    all_goals cases hstep
    all_goals first
      | exact .giveUp ‹_› | exact .choose ‹_› ‹_› | exact .openPool ‹_› ‹_›
      | exact .reclaimed ‹_› ‹_› | exact .released ‹_› ‹_› | exact .enter ‹_› ‹_›
      | exact .beginStart ‹_› ‹_› (Bool.eq_false_of_not_eq_true ‹_›) | exact .spawn ‹_›
      | exact .revive (.inl ‹_›) ‹_› | exact .revive (.inr ‹_›) ‹_› | exact .readyMore ‹_› ‹_› ‹_›
      | exact .readyLast ‹_› ‹_› | exact .restarted ‹_› ‹_› | exact .take ‹_› ‹_›
      | exact .queueTimeout ‹_› | exact .submit ‹_› ‹_› | exact .recycle ‹_› | exact .complete ‹_›
      | exact .stopFailing ‹_› | exact .stopRecycling ‹_› | exact .abandonReclaim ‹_›
      | exact .abandonRelease ‹_› | exact .abandonStart ‹_› | exact .abandonEntry ‹_›
      | exact .abandonWait ‹_› | exact .fail (.inl ‹_›) | exact .fail (.inr ‹_›)
      | exact .abandonStop ‹_› | exact .abandonPut (.inl ‹_›) | exact .abandonPut (.inr ‹_›)
      | exact .exit ‹_›

end DbtCraft.Services.WarmPool

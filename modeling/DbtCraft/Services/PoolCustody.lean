/-
# Where every live worker is

A pool in the registry keeps its workers in its queue or with the runs that
hold them. A pool taken out of the registry has no runs left and is being
stopped. Both hold as long as a pool is dropped only while no run refers to it,
and no task ends while it is the only one that knows of a live worker.
-/

import DbtCraft.Services.PoolCounts

namespace DbtCraft.Services.WarmPool

open DbtCraft.Math DbtCraft.Python

universe uπ uτ

variable {π : Type uπ} {τ : Type uτ} {deployment : Deployment π τ} {contents : Contents π τ}
  {task : τ} {phase before : Phase π} {pool index : ℕ} {worker : Worker}

/-- The worker a run holds or starts. -/
def Phase.hand : Phase π → Option Worker
  | .starting _ _ worker => worker
  | .preparing _ worker | .executing _ worker | .failing _ worker | .recycling _ worker
  | .restarting _ worker => some worker
  | .idle | .sweeping _ | .reclaiming _ _ _ | .entering _ | .waiting _ | .releasing _ _
  | .finished => none

/-- The dropped pool a task is stopping. -/
def Phase.stops : Phase π → Option ℕ
  | .reclaiming pool _ _ | .releasing pool _ => some pool
  | .idle | .sweeping _ | .entering _ | .starting _ _ _ | .waiting _ | .preparing _ _
  | .executing _ _ | .failing _ _ | .recycling _ _ | .restarting _ _ | .finished => none

/-- The pool whose `_start_lock` a task holds. -/
def Phase.starts : Phase π → Option ℕ
  | .starting pool _ _ => some pool
  | .idle | .sweeping _ | .reclaiming _ _ _ | .entering _ | .waiting _ | .preparing _ _
  | .executing _ _ | .failing _ _ | .recycling _ _ | .restarting _ _ | .releasing _ _
  | .finished => none

namespace Contents

section

variable [DecidableEq π]

/-- A pool that `_project_pools` knows. -/
def Registered (contents : Contents π τ) (pool : ℕ) : Prop :=
  ∃ project, contents.projectPools.get project = some pool

/-- Items of the registry, past or present. -/
def Known (contents : Contents π τ) (items : List (π × ℕ)) : Prop :=
  ∀ item ∈ items, contents.project item.2 = some item.1

/-- A dropped pool whose first workers have exited. -/
def Stopping (contents : Contents π τ) (pool index : ℕ) : Prop :=
  ¬ contents.Registered pool ∧ contents.project pool ≠ none ∧
    ∀ worker ∈ (contents.pool pool).workers.take index, worker ∉ contents.live

/-- What a task may rely on. -/
def TaskOk (deployment : Deployment π τ) (contents : Contents π τ) : Phase π → Prop
  | .idle | .finished => True
  | .sweeping rest => 0 < deployment.workerCount ∧ contents.Known rest
  | .reclaiming pool index rest =>
    contents.Stopping pool index ∧ 0 < deployment.workerCount ∧ contents.Known rest
  | .releasing pool index => contents.Stopping pool index
  | .entering pool => contents.Registered pool ∧ 0 < deployment.workerCount
  | .waiting pool => contents.Registered pool
  | .starting pool index worker =>
    contents.Registered pool ∧ (contents.pool pool).workers.length = index ∧
      index < deployment.workerCount ∧ ∀ started ∈ worker, started.pool = pool
  | .preparing pool worker | .executing pool worker | .failing pool worker
  | .recycling pool worker | .restarting pool worker =>
    contents.Registered pool ∧ worker ∈ (contents.pool pool).workers

/-- Somebody will deal with a live worker: it is queued in a registered pool, a
run has it, or its pool is being stopped. -/
def Custody (contents : Contents π τ) (worker : Worker) : Prop :=
  (contents.Registered worker.pool ∧ worker ∈ (contents.pool worker.pool).available) ∨
    (∃ task, (contents.phase task).hand = some worker) ∨
    (∃ task, (contents.phase task).stops = some worker.pool) ∧
      worker ∈ (contents.pool worker.pool).workers

/-- A pool that has or is about to have a worker. -/
def Populated (contents : Contents π τ) (pool : ℕ) : Prop :=
  (contents.pool pool).workers ≠ [] ∨
    ∃ task index worker, contents.phase task = .starting pool index (some worker)

/-- The invariant of careful runs. -/
structure Kept (deployment : Deployment π τ) (contents : Contents π τ) : Prop where
  known : contents.Known contents.projectPools
  fresh : ∀ pool, contents.poolsMade ≤ pool → contents.project pool = none
  task : ∀ task, contents.TaskOk deployment (contents.phase task)
  locked : ∀ task pool, (contents.phase task).starts = some pool →
    (contents.pool pool).startLock = some task
  custody : ∀ worker ∈ contents.live, contents.Custody worker
  queued : ∀ pool, contents.Registered pool → ∀ worker ∈ (contents.pool pool).available,
    worker ∈ (contents.pool pool).workers
  own : ∀ pool, ∀ worker ∈ (contents.pool pool).workers, worker.pool = pool
  room : ∀ pool, (contents.pool pool).workers.length ≤ deployment.workerCount
  unstarted : ∀ pool, contents.Registered pool → (contents.pool pool).startLock = none →
    (contents.pool pool).started = false → (contents.pool pool).workers = []
  solo : ∀ worker ∈ contents.live, ∀ other ∈ contents.live,
    contents.project worker.pool = contents.project other.pool → worker.pool = other.pool
  populated : ∀ pool, contents.Registered pool → contents.Populated pool →
    ∀ worker ∈ contents.live, contents.project worker.pool = contents.project pool →
      worker.pool = pool

/-! ## What a task may rely on -/

theorem TaskOk.registered (hok : contents.TaskOk deployment phase)
    (huser : phase.user = some pool) : contents.Registered pool := by
  cases phase with
  | idle | sweeping _ | reclaiming _ _ _ | releasing _ _ | finished => cases huser
  | waiting _ =>
    cases huser
    exact hok
  | entering _ | starting _ _ _ | preparing _ _ | executing _ _ | failing _ _ | recycling _ _
  | restarting _ _ =>
    cases huser
    exact hok.1

theorem TaskOk.stopping (hok : contents.TaskOk deployment phase)
    (hstops : phase.stops = some pool) :
    ¬ contents.Registered pool ∧ contents.project pool ≠ none := by
  cases phase with
  | reclaiming _ _ _ =>
    cases hstops
    exact ⟨hok.1.1, hok.1.2.1⟩
  | releasing _ _ =>
    cases hstops
    exact ⟨hok.1, hok.2.1⟩
  | idle | sweeping _ | entering _ | waiting _ | starting _ _ _ | preparing _ _ | executing _ _
  | failing _ _ | recycling _ _ | restarting _ _ | finished => cases hstops

omit [DecidableEq π] in
theorem Phase.user_of_starts (hstarts : phase.starts = some pool) : phase.user = some pool := by
  cases phase <;> first | exact hstarts | cases hstarts

theorem Kept.registered (hkept : contents.Kept deployment) (project : π) (pool : ℕ)
    (hget : contents.projectPools.get project = some pool) :
    contents.project pool = some project :=
  hkept.known (project, pool) (Dict.mem_of_get hget)

/-- A worker in hand belongs to the pool its task refers to. -/
theorem Kept.user_of_hand (hkept : contents.Kept deployment)
    (hhand : (contents.phase task).hand = some worker) :
    (contents.phase task).user = some worker.pool := by
  have hok := hkept.task task
  cases hphase : contents.phase task with
  | starting pool index started =>
    rw [hphase] at hok hhand
    rw [hok.2.2.2 worker hhand]
    rfl
  | preparing pool held | executing pool held | failing pool held | recycling pool held
  | restarting pool held =>
    rw [hphase] at hok hhand
    cases hhand
    rw [hkept.own pool worker hok.2]
    rfl
  | idle | sweeping _ | reclaiming _ _ _ | entering _ | waiting _ | releasing _ _ | finished =>
    rw [hphase] at hhand
    cases hhand

/-- The live workers of a dropped pool are those it lists. -/
theorem Kept.mem_workers_of_dropped (hkept : contents.Kept deployment)
    (hlive : worker ∈ contents.live) (hdropped : ¬ contents.Registered worker.pool) :
    worker ∈ (contents.pool worker.pool).workers := by
  rcases hkept.custody worker hlive with hqueue | ⟨task, hhand⟩ | hstopped
  · exact absurd hqueue.1 hdropped
  · exact absurd ((hkept.task task).registered (hkept.user_of_hand hhand)) hdropped
  · exact hstopped.2

theorem Kept.project_of_registered (hkept : contents.Kept deployment)
    (hregistered : contents.Registered pool) : contents.project pool ≠ none := by
  obtain ⟨project, hget⟩ := hregistered
  rw [hkept.registered project pool hget]
  simp

/-- A live worker is listed by its pool or about to be. -/
theorem Kept.listed (hkept : contents.Kept deployment) (hlive : worker ∈ contents.live) :
    worker ∈ (contents.pool worker.pool).workers ∨
      ∃ task index, contents.phase task = .starting worker.pool index (some worker) := by
  rcases hkept.custody worker hlive with hqueued | ⟨task, hhand⟩ | hstopped
  · exact Or.inl (hkept.queued _ hqueued.1 worker hqueued.2)
  · have hok := hkept.task task
    cases hphase : contents.phase task with
    | starting pool index started =>
      rw [hphase] at hok hhand
      cases hhand
      rw [← hok.2.2.2 worker rfl] at hphase
      exact Or.inr ⟨task, index, hphase⟩
    | preparing pool held | executing pool held | failing pool held | recycling pool held
    | restarting pool held =>
      rw [hphase] at hok hhand
      cases hhand
      exact Or.inl (hkept.own pool worker hok.2 ▸ hok.2)
    | idle | sweeping _ | reclaiming _ _ _ | entering _ | waiting _ | releasing _ _ | finished =>
      rw [hphase] at hhand
      cases hhand
  · exact Or.inl hstopped.2

theorem Kept.project_of_live (hkept : contents.Kept deployment)
    (hlive : worker ∈ contents.live) : contents.project worker.pool ≠ none := by
  rcases hkept.custody worker hlive with hqueue | ⟨task, hhand⟩ | ⟨⟨task, hstops⟩, -⟩
  · exact hkept.project_of_registered hqueue.1
  · exact hkept.project_of_registered ((hkept.task task).registered (hkept.user_of_hand hhand))
  · exact ((hkept.task task).stopping hstops).2

theorem Kept.registered_unique (hkept : contents.Kept deployment) {other : ℕ}
    (hpool : contents.Registered pool) (hother : contents.Registered other)
    (hproject : contents.project pool = contents.project other) : pool = other := by
  obtain ⟨project, hget⟩ := hpool
  obtain ⟨project', hget'⟩ := hother
  rw [hkept.registered _ _ hget, hkept.registered _ _ hget'] at hproject
  cases hproject
  rw [hget] at hget'
  exact Option.some.inj hget'

/-! ## What keeps the invariant -/

/-- A change of the live workers reaches only the tasks that stop a pool. -/
theorem TaskOk.setLive {live : Finset Worker} (hok : contents.TaskOk deployment phase)
    (hstopping : ∀ pool index, contents.Stopping pool index →
      Stopping { contents with live := live } pool index) :
    TaskOk deployment { contents with live := live } phase := by
  cases phase with
  | reclaiming pool index rest => exact ⟨hstopping pool index hok.1, hok.2⟩
  | releasing pool index => exact hstopping pool index hok
  | idle | sweeping _ | entering _ | waiting _ | starting _ _ _ | preparing _ _
  | executing _ _ | failing _ _ | recycling _ _ | restarting _ _ | finished => exact hok

theorem Kept.kill (hkept : contents.Kept deployment) (worker : Worker) :
    Kept deployment { contents with live := contents.live.erase worker } := by
  refine { hkept with task := ?_, custody := ?_, solo := ?_, populated := ?_ }
  · intro task
    apply (hkept.task task).setLive
    intro pool index hstop
    refine ⟨hstop.1, hstop.2.1, fun other hother hlive => ?_⟩
    exact hstop.2.2 other hother (Finset.mem_of_mem_erase hlive)
  · exact fun other hlive => hkept.custody other (Finset.mem_of_mem_erase hlive)
  · exact fun first hfirst second hsecond =>
      hkept.solo first (Finset.mem_of_mem_erase hfirst) second (Finset.mem_of_mem_erase hsecond)
  · exact fun pool hregistered hpopulated other hlive =>
      hkept.populated pool hregistered hpopulated other (Finset.mem_of_mem_erase hlive)

theorem Kept.revive (hkept : contents.Kept deployment)
    (hhand : (contents.phase task).hand = some worker)
    (hsolo : ∀ other ∈ contents.live, contents.project other.pool = contents.project worker.pool →
      other.pool = worker.pool) :
    Kept deployment { contents with live := insert worker contents.live } := by
  have hregistered : contents.Registered worker.pool :=
    (hkept.task task).registered (hkept.user_of_hand hhand)
  refine { hkept with task := ?_, custody := ?_, solo := ?_, populated := ?_ }
  · intro other
    apply (hkept.task other).setLive
    intro pool index hstop
    refine ⟨hstop.1, hstop.2.1, fun listed hlisted hlive => ?_⟩
    rcases Finset.mem_insert.mp hlive with rfl | hlive
    · have hpool := hkept.own pool listed (List.mem_of_mem_take hlisted)
      exact hstop.1 (hpool ▸ hregistered)
    · exact hstop.2.2 listed hlisted hlive
  · intro other hlive
    rcases Finset.mem_insert.mp hlive with rfl | hlive
    · exact Or.inr (Or.inl ⟨task, hhand⟩)
    · exact hkept.custody other hlive
  · intro first hfirst second hsecond hproject
    rcases Finset.mem_insert.mp hfirst with hnew | hold
    · rcases Finset.mem_insert.mp hsecond with hnew' | hold'
      · rw [hnew, hnew']
      · rw [hnew] at hproject ⊢
        exact (hsolo second hold' hproject.symm).symm
    · rcases Finset.mem_insert.mp hsecond with hnew' | hold'
      · rw [hnew'] at hproject ⊢
        exact hsolo first hold hproject
      · exact hkept.solo first hold second hold' hproject
  · intro pool hpool hpopulated other hlive hproject
    rcases Finset.mem_insert.mp hlive with rfl | hlive
    · exact hkept.registered_unique hregistered hpool hproject
    · exact hkept.populated pool hpool hpopulated other hlive hproject

/-- The worker at the index of a stopping pool exits. -/
theorem Stopping.stopWorker (hstop : contents.Stopping pool index)
    (hworker : (contents.pool pool).workers[index]? = some worker) :
    Stopping { contents with live := contents.live.erase worker } pool (index + 1) := by
  refine ⟨hstop.1, hstop.2.1, fun other hother hlive => ?_⟩
  rw [List.take_add_one, hworker] at hother
  rcases List.mem_append.mp hother with hearlier | hlast
  · exact hstop.2.2 other hearlier (Finset.mem_of_mem_erase hlive)
  · have hsame : other = worker := by simpa using hlast
    exact Finset.ne_of_mem_erase hlive hsame

theorem Kept.none_live_of_stopped (hkept : contents.Kept deployment)
    (hstop : contents.Stopping pool index)
    (hend : (contents.pool pool).workers.length ≤ index) :
    ∀ worker ∈ contents.live, worker.pool ≠ pool := by
  rintro worker hlive rfl
  apply hstop.2.2 worker _ hlive
  rw [List.take_of_length_le hend]
  exact hkept.mem_workers_of_dropped hlive hstop.1

/-- A worker of a registered pool shares its project with no live worker of
another pool. -/
theorem Kept.alone (hkept : contents.Kept deployment) (hregistered : contents.Registered pool)
    (hworker : worker ∈ (contents.pool pool).workers) :
    ∀ other ∈ contents.live, contents.project other.pool = contents.project worker.pool →
      other.pool = worker.pool := by
  rw [hkept.own pool worker hworker]
  exact hkept.populated pool hregistered (Or.inl (List.ne_nil_of_mem hworker))

/-! ### Changes of one pool -/

/-- A change of one pool reaches the tasks on it. -/
theorem TaskOk.setPool {updated : Pool τ} (hok : contents.TaskOk deployment phase)
    (hworkers : phase.user = some pool →
      ∀ worker ∈ (contents.pool pool).workers, worker ∈ updated.workers)
    (hlength : phase.starts = some pool →
      updated.workers.length = (contents.pool pool).workers.length)
    (hstops : phase.stops = some pool → ∀ worker ∈ updated.workers, worker ∉ contents.live) :
    TaskOk deployment { contents with pool := Function.update contents.pool pool updated }
      phase := by
  have hstopping : ∀ other index, phase.stops = some other → contents.Stopping other index →
      Stopping { contents with pool := Function.update contents.pool pool updated } other
        index := by
    intro other index hother hstop
    refine ⟨hstop.1, hstop.2.1, fun worker hworker => ?_⟩
    by_cases hpool : other = pool
    · subst other
      apply hstops hother worker
      simpa using List.mem_of_mem_take hworker
    · exact hstop.2.2 worker (by simpa [hpool] using hworker)
  have hmem : ∀ other worker, phase.user = some other → worker ∈ (contents.pool other).workers →
      worker ∈ (Function.update contents.pool pool updated other).workers := by
    intro other worker hother hworker
    by_cases hpool : other = pool
    · subst other
      simpa using hworkers hother worker hworker
    · simpa [hpool] using hworker
  cases phase with
  | idle | sweeping _ | entering _ | waiting _ | finished => exact hok
  | reclaiming other index rest => exact ⟨hstopping other index rfl hok.1, hok.2⟩
  | releasing other index => exact hstopping other index rfl hok
  | starting other index worker =>
    refine ⟨hok.1, ?_, hok.2.2⟩
    by_cases hpool : other = pool
    · subst other
      simpa [hlength rfl] using hok.2.1
    · simpa [hpool] using hok.2.1
  | preparing other worker | executing other worker | failing other worker
  | recycling other worker | restarting other worker =>
    exact ⟨hok.1, hmem other worker rfl hok.2⟩

/-- A change of the registry reaches the tasks on the pools it is about. -/
theorem TaskOk.setRegistry {project : ℕ → Option π} {poolsMade : ℕ} {projectPools : Dict π ℕ}
    (hok : contents.TaskOk deployment phase)
    (hregistered : ∀ pool, phase.user = some pool → contents.Registered pool →
      Registered { contents with projectPools := projectPools } pool)
    (hstops : ∀ pool, phase.stops = some pool → ¬ contents.Registered pool →
      ¬ Registered { contents with projectPools := projectPools } pool)
    (hproject : ∀ pool owner, contents.project pool = some owner → project pool = some owner) :
    TaskOk deployment
      { contents with project := project, poolsMade := poolsMade, projectPools := projectPools }
      phase := by
  have hknown : ∀ rest, contents.Known rest → ∀ item ∈ rest, project item.2 = some item.1 :=
    fun rest hrest item hitem => hproject _ _ (hrest item hitem)
  have hstopping : ∀ pool index, phase.stops = some pool → contents.Stopping pool index →
      Stopping { contents with
        project := project, poolsMade := poolsMade, projectPools := projectPools } pool index := by
    intro pool index hpool hstop
    refine ⟨hstops pool hpool hstop.1, ?_, hstop.2.2⟩
    obtain ⟨owner, howner⟩ := Option.ne_none_iff_exists'.mp hstop.2.1
    show project pool ≠ none
    rw [hproject pool owner howner]
    simp
  cases phase with
  | idle | finished => exact trivial
  | sweeping rest => exact ⟨hok.1, hknown rest hok.2⟩
  | reclaiming pool index rest =>
    exact ⟨hstopping pool index rfl hok.1, hok.2.1, hknown rest hok.2.2⟩
  | releasing pool index => exact hstopping pool index rfl hok
  | waiting pool => exact hregistered pool rfl hok
  | entering pool | starting pool _ _ | preparing pool _ | executing pool _ | failing pool _
  | recycling pool _ | restarting pool _ => exact ⟨hregistered pool rfl hok.1, hok.2⟩

/-- A dropped pool without live workers is emptied. -/
theorem Kept.clear (hkept : contents.Kept deployment) (hdropped : ¬ contents.Registered pool)
    (hnone : ∀ worker ∈ contents.live, worker.pool ≠ pool) :
    Kept deployment { contents with
      pool := Function.update contents.pool pool (contents.pool pool).clear } := by
  have hne : ∀ other, contents.Registered other → other ≠ pool := by
    rintro other hother rfl
    exact hdropped hother
  refine { hkept with
    task := ?_, locked := ?_, custody := ?_, queued := ?_, own := ?_, room := ?_,
    unstarted := ?_, populated := ?_ }
  · intro task
    have hok := hkept.task task
    apply hok.setPool
    · exact fun huser => absurd (hok.registered huser) hdropped
    · exact fun hstarts => absurd (hok.registered (Phase.user_of_starts hstarts)) hdropped
    · simp [Pool.clear]
  · intro task other hstarts
    have hother := hne other ((hkept.task task).registered (Phase.user_of_starts hstarts))
    simpa [hother] using hkept.locked task other hstarts
  · intro worker hlive
    simpa [Custody, Registered, hnone worker hlive] using hkept.custody worker hlive
  · intro other hother worker
    simpa [hne other hother] using hkept.queued other hother worker
  · intro other worker
    by_cases hother : other = pool
    · simp [hother, Pool.clear]
    · simpa [hother] using hkept.own other worker
  · intro other
    by_cases hother : other = pool
    · simp [hother, Pool.clear]
    · simpa [hother] using hkept.room other
  · intro other hother
    simpa [hne other hother] using hkept.unstarted other hother
  · intro other hother hpopulated
    apply hkept.populated other hother
    simpa [Populated, hne other hother] using hpopulated

/-- The queue and the start of a pool change, and not its workers. -/
theorem Kept.setPool {updated : Pool τ} (hkept : contents.Kept deployment)
    (hregistered : contents.Registered pool)
    (hworkers : updated.workers = (contents.pool pool).workers)
    (havailable : ∀ worker ∈ updated.available, worker ∈ updated.workers)
    (hqueue : ∀ worker ∈ (contents.pool pool).available,
      worker ∈ updated.available ∨ ∃ task, (contents.phase task).hand = some worker)
    (hlocked : ∀ task, (contents.phase task).starts = some pool →
      updated.startLock = some task)
    (hunstarted : updated.startLock = none → updated.started = false → updated.workers = []) :
    Kept deployment { contents with pool := Function.update contents.pool pool updated } := by
  have hsame : ∀ other, (Function.update contents.pool pool updated other).workers =
      (contents.pool other).workers := by
    intro other
    by_cases hother : other = pool
    · subst other
      simpa using hworkers
    · simp [hother]
  refine { hkept with
    task := ?_, locked := ?_, custody := ?_, queued := ?_, own := ?_, room := ?_,
    unstarted := ?_, populated := ?_ }
  · intro task
    have hok := hkept.task task
    apply hok.setPool
    · intro _ worker hworker
      rw [hworkers]
      exact hworker
    · exact fun _ => by rw [hworkers]
    · exact fun hstops => absurd hregistered (hok.stopping hstops).1
  · intro task other hstarts
    by_cases hother : other = pool
    · subst other
      simpa using hlocked task hstarts
    · simpa [hother] using hkept.locked task other hstarts
  · intro worker hlive
    rcases hkept.custody worker hlive with hqueued | hhand | hstopped
    · by_cases hpool : worker.pool = pool
      · rcases hqueue worker (hpool ▸ hqueued.2) with hstays | hhand
        · exact Or.inl ⟨hqueued.1, by simpa [hpool] using hstays⟩
        · exact Or.inr (Or.inl hhand)
      · exact Or.inl ⟨hqueued.1, by simpa [hpool] using hqueued.2⟩
    · exact Or.inr (Or.inl hhand)
    · exact Or.inr (Or.inr ⟨hstopped.1, by simpa [hsame] using hstopped.2⟩)
  · intro other hother worker hworker
    by_cases hpool : other = pool
    · subst other
      simpa using havailable worker (by simpa using hworker)
    · simpa [hpool] using hkept.queued other hother worker (by simpa [hpool] using hworker)
  · intro other worker hworker
    exact hkept.own other worker (by simpa [hsame] using hworker)
  · intro other
    simpa [hsame] using hkept.room other
  · intro other hother
    by_cases hpool : other = pool
    · subst other
      simpa using hunstarted
    · simpa [hpool] using hkept.unstarted other hother
  · intro other hother hpopulated
    apply hkept.populated other hother
    simpa [Populated, hsame] using hpopulated

theorem Kept.openPool {project : π} (hkept : contents.Kept deployment)
    (hnone : contents.projectPools.get project = none) :
    Kept deployment { contents with
      pool := Function.update contents.pool contents.poolsMade {}
      project := Function.update contents.project contents.poolsMade (some project)
      poolsMade := contents.poolsMade + 1
      projectPools := contents.projectPools.set project contents.poolsMade } := by
  have hfresh : contents.project contents.poolsMade = none := hkept.fresh _ le_rfl
  have hne : ∀ pool, contents.project pool ≠ none → pool ≠ contents.poolsMade := by
    rintro pool hmade rfl
    exact hmade hfresh
  have hold : ∀ pool, pool ≠ contents.poolsMade →
      Registered { contents with
        projectPools := contents.projectPools.set project contents.poolsMade } pool →
      contents.Registered pool := by
    rintro pool hpool ⟨owner, hget⟩
    simp only [Dict.get_set] at hget
    split at hget
    · cases hget
      exact absurd rfl hpool
    · exact ⟨owner, hget⟩
  have hstays : ∀ pool, contents.Registered pool →
      Registered { contents with
        projectPools := contents.projectPools.set project contents.poolsMade } pool := by
    rintro pool ⟨owner, hget⟩
    have howner : owner ≠ project := by
      rintro rfl
      rw [hnone] at hget
      cases hget
    exact ⟨owner, by simpa [howner] using hget⟩
  have huser : ∀ task pool, (contents.phase task).user = some pool → pool ≠ contents.poolsMade :=
    fun task pool huser => hne pool (hkept.project_of_registered ((hkept.task task).registered huser))
  have hlive : ∀ worker ∈ contents.live, worker.pool ≠ contents.poolsMade :=
    fun worker hlive => hne _ (hkept.project_of_live hlive)
  refine ⟨?_, ?_, ?_, ?_, ?_, ?_, ?_, ?_, ?_, ?_, ?_⟩
  · intro item hitem
    rcases Dict.mem_set hitem with rfl | hbefore
    · simp
    · have hmade := hkept.known item hbefore
      have hpool := hne item.2 (by simp [hmade])
      simpa [hpool] using hmade
  · intro pool hpool
    have hlt : contents.poolsMade < pool := hpool
    simpa [hlt.ne'] using hkept.fresh pool hlt.le
  · intro task
    have hok := hkept.task task
    have hpool : TaskOk deployment
        { contents with pool := Function.update contents.pool contents.poolsMade {} }
        (contents.phase task) := by
      apply hok.setPool
      · exact fun hnew => absurd rfl (huser task _ hnew)
      · exact fun hnew => absurd rfl (huser task _ (Phase.user_of_starts hnew))
      · simp
    apply hpool.setRegistry
    · exact fun pool _ => hstays pool
    · intro pool hstops hdropped hregistered
      exact hdropped (hold pool (hne pool (hok.stopping hstops).2) hregistered)
    · intro pool owner howner
      have hother : pool ≠ contents.poolsMade := hne pool (by
        show contents.project pool ≠ none
        rw [howner]
        simp)
      simpa [hother] using howner
  · intro task pool hstarts
    have hpool := huser task pool (Phase.user_of_starts hstarts)
    simpa [hpool] using hkept.locked task pool hstarts
  · intro worker hworker
    have hpool := hlive worker hworker
    rcases hkept.custody worker hworker with hqueued | hhand | hstopped
    · exact Or.inl ⟨hstays _ hqueued.1, by simpa [hpool] using hqueued.2⟩
    · exact Or.inr (Or.inl hhand)
    · exact Or.inr (Or.inr ⟨hstopped.1, by simpa [hpool] using hstopped.2⟩)
  · intro pool hregistered worker hworker
    by_cases hpool : pool = contents.poolsMade
    · simp [hpool] at hworker
    · simpa [hpool] using hkept.queued pool (hold pool hpool hregistered) worker
        (by simpa [hpool] using hworker)
  · intro pool worker hworker
    by_cases hpool : pool = contents.poolsMade
    · simp [hpool] at hworker
    · exact hkept.own pool worker (by simpa [hpool] using hworker)
  · intro pool
    by_cases hpool : pool = contents.poolsMade
    · simp [hpool]
    · simpa [hpool] using hkept.room pool
  · intro pool hregistered
    by_cases hpool : pool = contents.poolsMade
    · simp [hpool]
    · simpa [hpool] using hkept.unstarted pool (hold pool hpool hregistered)
  · intro worker hworker other hother
    simpa [hlive worker hworker, hlive other hother] using hkept.solo worker hworker other hother
  · intro pool hregistered hpopulated worker hworker
    by_cases hpool : pool = contents.poolsMade
    · -- A pool just made has no worker, and nobody starts one in it.
      rcases hpopulated with hworkers | ⟨starter, index, started, hstarting⟩
      · simp [hpool] at hworkers
      · have hstarter : contents.phase starter = .starting pool index (some started) := hstarting
        exact absurd hpool (huser starter pool (by rw [hstarter]; rfl))
    · have hbefore : contents.Populated pool := by simpa [Populated, hpool] using hpopulated
      simpa [hpool, hlive worker hworker] using
        hkept.populated pool (hold pool hpool hregistered) hbefore worker hworker

/-! ## How many workers are live -/

/-- The live workers of a project are those of one pool, which has room for them. -/
theorem Kept.card_live_le (hkept : contents.Kept deployment) (project : π) :
    (contents.live.filter fun worker => contents.project worker.pool = some project).card ≤
      deployment.workerCount := by
  rcases Finset.eq_empty_or_nonempty
    (contents.live.filter fun worker => contents.project worker.pool = some project)
    with hempty | ⟨first, hfirst⟩
  · simp [hempty]
  obtain ⟨hlive, hproject⟩ := Finset.mem_filter.mp hfirst
  have hpool : ∀ worker ∈ contents.live.filter
      (fun worker => contents.project worker.pool = some project), worker.pool = first.pool := by
    intro worker hworker
    obtain ⟨hworker, hsame⟩ := Finset.mem_filter.mp hworker
    exact hkept.solo worker hworker first hlive (hsame.trans hproject.symm)
  by_cases hstarting : ∃ task index started,
      contents.phase task = .starting first.pool index (some started)
  · obtain ⟨task, index, started, hphase⟩ := hstarting
    have hok := hkept.task task
    rw [hphase] at hok
    have hsubset : (contents.live.filter
        fun worker => contents.project worker.pool = some project) ⊆
          insert started (contents.pool first.pool).workers.toFinset := by
      intro worker hworker
      have hsame := hpool worker hworker
      rcases hkept.listed (Finset.mem_filter.mp hworker).1 with hlisted | ⟨other, position, hother⟩
      · rw [hsame] at hlisted
        simp [hlisted]
      · -- The start lock has one holder.
        rw [hsame] at hother
        have hlock := hkept.locked task first.pool (by rw [hphase]; rfl)
        rw [hkept.locked other first.pool (by rw [hother]; rfl)] at hlock
        cases hlock
        rw [hphase] at hother
        cases hother
        exact Finset.mem_insert_self _ _
    have hcard := (Finset.card_le_card hsubset).trans (Finset.card_insert_le _ _)
    have hlength := List.toFinset_card_le (contents.pool first.pool).workers
    have hroom := hok.2.2.1
    rw [← hok.2.1] at hroom
    omega
  · have hsubset : (contents.live.filter
        fun worker => contents.project worker.pool = some project) ⊆
          (contents.pool first.pool).workers.toFinset := by
      intro worker hworker
      have hsame := hpool worker hworker
      rcases hkept.listed (Finset.mem_filter.mp hworker).1 with hlisted | ⟨other, position, hother⟩
      · rw [hsame] at hlisted
        simpa using hlisted
      · rw [hsame] at hother
        exact absurd ⟨other, position, worker, hother⟩ hstarting
    exact (Finset.card_le_card hsubset).trans
      ((List.toFinset_card_le _).trans (hkept.room first.pool))

variable [DecidableEq τ]

/-! ### Changes of one task -/

theorem Kept.setPhase (hkept : contents.Kept deployment) (hbefore : contents.phase task = before)
    (hok : contents.TaskOk deployment phase)
    (hlocked : ∀ pool, phase.starts = some pool →
      (contents.pool pool).startLock = some task)
    (hpopulated : ∀ pool index worker, phase = .starting pool index (some worker) →
      ∀ other ∈ contents.live, contents.project other.pool = contents.project pool →
        other.pool = pool)
    (hhand : ∀ worker ∈ contents.live, before.hand = some worker → phase.hand = some worker ∨
      contents.Registered worker.pool ∧ worker ∈ (contents.pool worker.pool).available)
    (hstops : ∀ pool, before.stops = some pool → phase.stops = some pool ∨
      ∀ worker ∈ contents.live, worker.pool ≠ pool) :
    Kept deployment { contents with phase := Function.update contents.phase task phase } := by
  subst hbefore
  refine { hkept with task := ?_, locked := ?_, custody := ?_, populated := ?_ }
  · intro other
    show TaskOk deployment contents (Function.update contents.phase task phase other)
    by_cases hother : other = task
    · simpa [hother] using hok
    · simpa [hother] using hkept.task other
  · intro other pool hstarts
    by_cases hother : other = task
    · subst other
      exact hlocked pool (by simpa using hstarts)
    · exact hkept.locked other pool (by simpa [hother] using hstarts)
  · intro worker hlive
    rcases hkept.custody worker hlive with hqueued | ⟨other, hother⟩ | ⟨⟨other, hother⟩, hmem⟩
    · exact Or.inl hqueued
    · by_cases hsame : other = task
      · subst other
        rcases hhand worker hlive hother with hkeeps | hqueued
        · exact Or.inr (Or.inl ⟨task, by simpa using hkeeps⟩)
        · exact Or.inl hqueued
      · exact Or.inr (Or.inl ⟨other, by simpa [hsame] using hother⟩)
    · by_cases hsame : other = task
      · subst other
        rcases hstops _ hother with hkeeps | hnone
        · exact Or.inr (Or.inr ⟨⟨task, by simpa using hkeeps⟩, hmem⟩)
        · exact absurd rfl (hnone worker hlive)
      · exact Or.inr (Or.inr ⟨⟨other, by simpa [hsame] using hother⟩, hmem⟩)
  · intro pool hregistered hpopulated' other hlive hproject
    rcases hpopulated' with hworkers | ⟨starter, index, worker, hstarting⟩
    · exact hkept.populated pool hregistered (Or.inl hworkers) other hlive hproject
    · by_cases hsame : starter = task
      · subst starter
        exact hpopulated pool index worker (by simpa using hstarting) other hlive hproject
      · have hbefore : contents.Populated pool :=
          Or.inr ⟨starter, index, worker, by simpa [hsame] using hstarting⟩
        exact hkept.populated pool hregistered hbefore other hlive hproject

/-- A task that has nothing to lose moves on without starting a pool. -/
theorem Kept.move (hkept : contents.Kept deployment) (hbefore : contents.phase task = before)
    (hok : contents.TaskOk deployment phase) (hstarts : phase.starts = none)
    (hhand : before.hand = none ∨ phase.hand = before.hand)
    (hstops : before.stops = none ∨ phase.stops = before.stops) :
    Kept deployment { contents with phase := Function.update contents.phase task phase } := by
  apply hkept.setPhase hbefore hok
  · simp [hstarts]
  · intro pool index worker hphase
    rw [hphase] at hstarts
    cases hstarts
  · intro worker _ hworker
    rcases hhand with hnone | hsame
    · simp [hnone] at hworker
    · exact Or.inl (hsame.trans hworker)
  · intro pool hpool
    rcases hstops with hnone | hsame
    · simp [hnone] at hpool
    · exact Or.inl (hsame.trans hpool)

/-- A task gives up what it has once that is safe. -/
theorem Kept.leave (hkept : contents.Kept deployment) (hbefore : contents.phase task = before)
    (hok : contents.TaskOk deployment phase) (hstarts : phase.starts = none)
    (hhand : ∀ worker ∈ contents.live, before.hand = some worker →
      contents.Registered worker.pool ∧ worker ∈ (contents.pool worker.pool).available)
    (hstops : ∀ pool, before.stops = some pool →
      ∀ worker ∈ contents.live, worker.pool ≠ pool) :
    Kept deployment { contents with phase := Function.update contents.phase task phase } := by
  apply hkept.setPhase hbefore hok
  · simp [hstarts]
  · intro pool index worker hphase
    rw [hphase] at hstarts
    cases hstarts
  · exact fun worker hlive hworker => Or.inr (hhand worker hlive hworker)
  · exact fun pool hpool => Or.inr (hstops pool hpool)

theorem Kept.beginStart (hkept : contents.Kept deployment)
    (hbefore : contents.phase task = .entering pool)
    (hfree : (contents.pool pool).startLock = none)
    (hunstarted : (contents.pool pool).started = false) :
    Kept deployment { contents with
      pool := Function.update contents.pool pool
        { contents.pool pool with startLock := some task }
      phase := Function.update contents.phase task (.starting pool 0 none) } := by
  have hok := hkept.task task
  rw [hbefore] at hok
  have hlocked : Kept deployment { contents with
      pool := Function.update contents.pool pool
        { contents.pool pool with startLock := some task } } := by
    apply hkept.setPool hok.1
    · rfl
    · exact hkept.queued pool hok.1
    · exact fun worker hworker => Or.inl hworker
    · intro other hstarts
      rw [hkept.locked other pool hstarts] at hfree
      cases hfree
    · intro hnone
      cases hnone
  apply hlocked.setPhase hbefore
  · refine ⟨hok.1, ?_, hok.2, by simp⟩
    simp [hkept.unstarted pool hok.1 hfree hunstarted]
  · intro other hother
    cases hother
    simp
  · intro other index worker hphase
    cases hphase
  · intro worker _ hworker
    cases hworker
  · intro other hother
    cases hother

theorem Kept.spawn (hkept : contents.Kept deployment)
    (hbefore : contents.phase task = .starting pool index none) (hpool : worker.pool = pool)
    (hsolo : ∀ other ∈ contents.live, contents.project other.pool = contents.project pool →
      other.pool = pool) :
    Kept deployment { contents with
      phase := Function.update contents.phase task (.starting pool index (some worker))
      live := insert worker contents.live } := by
  have hok := hkept.task task
  rw [hbefore] at hok
  have hequipped : Kept deployment { contents with
      phase := Function.update contents.phase task (.starting pool index (some worker)) } := by
    apply hkept.setPhase hbefore
    · exact ⟨hok.1, hok.2.1, hok.2.2.1, fun started hstarted => by cases hstarted; exact hpool⟩
    · intro other hother
      cases hother
      apply hkept.locked
      rw [hbefore]
      rfl
    · intro other position started hphase
      cases hphase
      exact hsolo
    · intro other _ hother
      cases hother
    · intro other hother
      cases hother
  subst hpool
  apply hequipped.revive (by simp [Phase.hand] : (Function.update contents.phase task
    (.starting worker.pool index (some worker)) task).hand = some worker)
  exact hsolo

theorem Kept.abandonStart {started : Option Worker} (hkept : contents.Kept deployment)
    (hbefore : contents.phase task = .starting pool index started)
    (hempty : (contents.pool pool).workers = [])
    (hdead : ∀ worker ∈ started, worker ∉ contents.live) :
    Kept deployment { contents with
      pool := Function.update contents.pool pool
        { contents.pool pool with startLock := none }
      phase := Function.update contents.phase task .finished } := by
  have hok := hkept.task task
  have hlocked : (contents.pool pool).startLock = some task := by
    apply hkept.locked
    rw [hbefore]
    rfl
  rw [hbefore] at hok
  have hfinished : Kept deployment { contents with
      phase := Function.update contents.phase task .finished } := by
    apply hkept.leave hbefore _ rfl
    · exact fun worker hlive hhand => absurd hlive (hdead worker hhand)
    · intro other hother
      cases hother
    · exact trivial
  apply hfinished.setPool hok.1
  · rfl
  · exact hkept.queued pool hok.1
  · exact fun worker hworker => Or.inl hworker
  · intro other hstarts
    by_cases hother : other = task
    · subst other
      simp [Phase.starts] at hstarts
    · have hsame := hkept.locked other pool (by simpa [hother] using hstarts)
      rw [hlocked] at hsame
      exact absurd (Option.some.inj hsame).symm hother
  · exact fun _ _ => hempty

/-- A worker goes back to the queue of its pool, out of the hands of a run that
ends. -/
theorem Kept.putBack (hkept : contents.Kept deployment) (hbefore : contents.phase task = before)
    (hhand : before.hand = some worker)
    (hregistered : contents.Registered pool)
    (hworker : worker ∈ (contents.pool pool).workers) :
    Kept deployment { contents with
      pool := Function.update contents.pool pool ((contents.pool pool).queue worker)
      phase := Function.update contents.phase task .finished } := by
  have hqueued : Kept deployment { contents with
      pool := Function.update contents.pool pool ((contents.pool pool).queue worker) } := by
    apply hkept.setPool hregistered
    · rfl
    · intro other hother
      rcases List.mem_append.mp hother with hbefore | hnew
      · exact hkept.queued pool hregistered other hbefore
      · rw [List.mem_singleton.mp hnew]
        exact hworker
    · exact fun other hother => Or.inl (List.mem_append_left _ hother)
    · exact fun other => hkept.locked other pool
    · exact hkept.unstarted pool hregistered
  apply hqueued.leave hbefore _ rfl
  · intro other _ hother
    obtain rfl : worker = other := Option.some.inj (hhand.symm.trans hother)
    have hown := hkept.own pool worker hworker
    subst hown
    exact ⟨hregistered, by simp [Pool.queue]⟩
  · intro other hstops
    cases before <;> cases hhand <;> cases hstops
  · exact trivial

theorem Kept.take {rest : List Worker} (hkept : contents.Kept deployment)
    (hbefore : contents.phase task = .waiting pool)
    (havailable : (contents.pool pool).available = worker :: rest) :
    Kept deployment { contents with
      pool := Function.update contents.pool pool
        { contents.pool pool with available := rest }
      phase := Function.update contents.phase task (.preparing pool worker) } := by
  have hregistered := hkept.task task
  rw [hbefore] at hregistered
  have hworker : worker ∈ (contents.pool pool).workers :=
    hkept.queued pool hregistered worker (by simp [havailable])
  have hheld : Kept deployment { contents with
      phase := Function.update contents.phase task (.preparing pool worker) } :=
    hkept.move hbefore ⟨hregistered, hworker⟩ rfl (Or.inl rfl) (Or.inl rfl)
  apply hheld.setPool hregistered
  · rfl
  · intro other hother
    exact hkept.queued pool hregistered other (by simp [havailable, show other ∈ rest from hother])
  · intro other hother
    have hcases : other = worker ∨ other ∈ rest := by simpa [havailable] using hother
    rcases hcases with rfl | hrest
    · exact Or.inr ⟨task, by simp [Phase.hand]⟩
    · exact Or.inl hrest
  · intro other hstarts
    have hother : other ≠ task := by
      rintro rfl
      simp [Phase.starts] at hstarts
    exact hkept.locked other pool (by simpa [hother] using hstarts)
  · exact hkept.unstarted pool hregistered

/-- A started worker joins its pool, and the start goes on or ends. -/
theorem Kept.append {updated : Pool τ} (hkept : contents.Kept deployment)
    (hbefore : contents.phase task = .starting pool index (some worker))
    (hworkers : updated.workers = (contents.pool pool).workers ++ [worker])
    (havailable : updated.available = (contents.pool pool).available ++ [worker])
    (hafter : phase = .starting pool (index + 1) none ∧ index + 1 < deployment.workerCount ∧
        updated.startLock = some task ∨
      phase = .waiting pool ∧ updated.started = true) :
    Kept deployment { contents with
      pool := Function.update contents.pool pool updated
      phase := Function.update contents.phase task phase } := by
  have hown := hkept.task task
  rw [hbefore] at hown
  obtain ⟨hregistered, hlength, hroom, hmade⟩ := hown
  have hpool : worker.pool = pool := hmade worker rfl
  have hlock : (contents.pool pool).startLock = some task := by
    apply hkept.locked
    rw [hbefore]
    rfl
  have hgrows : ∀ other member, member ∈ (contents.pool other).workers →
      member ∈ (Function.update contents.pool pool updated other).workers := by
    intro other member hmember
    by_cases hother : other = pool
    · subst other
      simp [hworkers, hmember]
    · simpa [hother] using hmember
  have halone : ∀ other, other ≠ task → (contents.phase other).starts ≠ some pool := by
    intro other hother hstarts
    rw [hkept.locked other pool hstarts] at hlock
    exact hother (Option.some.inj hlock)
  refine { hkept with
    task := ?_, locked := ?_, custody := ?_, queued := ?_, own := ?_, room := ?_,
    unstarted := ?_, populated := ?_ }
  · intro other
    by_cases hother : other = task
    · subst other
      rcases hafter with ⟨rfl, hlt, -⟩ | ⟨rfl, -⟩
      · simp only [Function.update_self]
        exact ⟨hregistered, by simp [hworkers, hlength], hlt, by simp⟩
      · simp only [Function.update_self]
        exact hregistered
    · simp only [Function.update_of_ne hother]
      have hok := hkept.task other
      apply hok.setPool
      · intro _ member hmember
        rw [hworkers]
        exact List.mem_append_left _ hmember
      · exact fun hstarts => absurd hstarts (halone other hother)
      · exact fun hstops => absurd hregistered (hok.stopping hstops).1
  · intro other started hstarts
    by_cases hother : other = task
    · subst other
      rcases hafter with ⟨rfl, -, hlocked⟩ | ⟨rfl, -⟩
      · simp only [Function.update_self] at hstarts
        cases hstarts
        simpa using hlocked
      · simp [Phase.starts] at hstarts
    · simp only [Function.update_of_ne hother] at hstarts
      have hne : started ≠ pool := by
        rintro rfl
        exact halone other hother hstarts
      simpa [hne] using hkept.locked other started hstarts
  · intro other hlive
    rcases hkept.custody other hlive with hqueued | ⟨holder, hholder⟩ | ⟨⟨stopper, hstops⟩, hmem⟩
    · refine Or.inl ⟨hqueued.1, ?_⟩
      by_cases hother : other.pool = pool
      · have hbefore := hqueued.2
        rw [hother] at hbefore
        simp [hother, havailable, hbefore]
      · simpa [hother] using hqueued.2
    · by_cases hsame : holder = task
      · subst holder
        rw [hbefore] at hholder
        obtain rfl : worker = other := Option.some.inj hholder
        refine Or.inl ⟨hpool.symm ▸ hregistered, ?_⟩
        simp [hpool, havailable]
      · exact Or.inr (Or.inl ⟨holder, by simpa [hsame] using hholder⟩)
    · have hsame : stopper ≠ task := by
        rintro rfl
        rw [hbefore] at hstops
        cases hstops
      exact Or.inr (Or.inr ⟨⟨stopper, by simpa [hsame] using hstops⟩, hgrows _ _ hmem⟩)
  · intro other hother member hmember
    by_cases hsame : other = pool
    · subst other
      simp only [Function.update_self, havailable, hworkers, List.mem_append] at hmember ⊢
      exact hmember.imp_left (hkept.queued pool hregistered member)
    · exact hgrows other member (hkept.queued other hother member (by simpa [hsame] using hmember))
  · intro other member hmember
    by_cases hsame : other = pool
    · subst other
      simp only [Function.update_self, hworkers, List.mem_append, List.mem_singleton] at hmember
      rcases hmember with hmember | rfl
      · exact hkept.own pool member hmember
      · exact hpool
    · exact hkept.own other member (by simpa [hsame] using hmember)
  · intro other
    by_cases hsame : other = pool
    · subst other
      simpa [hworkers, hlength] using hroom
    · simpa [hsame] using hkept.room other
  · intro other hother hfree hunstarted
    by_cases hsame : other = pool
    · subst other
      simp only [Function.update_self] at hfree hunstarted
      rcases hafter with ⟨-, -, hlocked⟩ | ⟨-, hstarted⟩
      · simp [hlocked] at hfree
      · simp [hstarted] at hunstarted
    · simpa [hsame] using hkept.unstarted other hother (by simpa [hsame] using hfree)
        (by simpa [hsame] using hunstarted)
  · intro other hother hpopulated
    apply hkept.populated other hother
    by_cases hsame : other = pool
    · subst other
      exact Or.inr ⟨task, index, worker, hbefore⟩
    · rcases hpopulated with hmembers | ⟨starter, position, started, hstarting⟩
      · exact Or.inl (by simpa [hsame] using hmembers)
      · have hstarter : starter ≠ task := by
          rintro rfl
          rcases hafter with ⟨rfl, -⟩ | ⟨rfl, -⟩ <;> simp at hstarting
        exact Or.inr ⟨starter, position, started, by simpa [hstarter] using hstarting⟩

/-- A pool that no run refers to is taken out of the registry and stopped. -/
theorem Kept.dropPool {project : π} (hkept : contents.Kept deployment)
    (hbefore : contents.phase task = before) (hhand : before.hand = none)
    (hstops : before.stops = none) (hproject : contents.project pool = some project)
    (hdropped : ∀ dropped ∈ contents.projectPools.get project,
      dropped = pool ∧ ∀ other, (contents.phase other).user ≠ some pool)
    (hafter : phase = .releasing pool 0 ∨ ∃ rest, phase = .reclaiming pool 0 rest ∧
      0 < deployment.workerCount ∧ contents.Known rest) :
    Kept deployment { contents with
      phase := Function.update contents.phase task phase
      projectPools := contents.projectPools.pop project } := by
  have hweaker : ∀ other,
      Registered { contents with projectPools := contents.projectPools.pop project } other →
        contents.Registered other := by
    rintro other ⟨owner, hget⟩
    simp only [Dict.get_pop] at hget
    split at hget
    · cases hget
    · exact ⟨owner, hget⟩
  have hgone :
      ¬ Registered { contents with projectPools := contents.projectPools.pop project } pool := by
    rintro ⟨owner, hget⟩
    simp only [Dict.get_pop] at hget
    split at hget
    · cases hget
    next howner =>
      rw [hkept.registered owner pool hget] at hproject
      exact howner (Option.some.inj hproject)
  have hstays : ∀ other, other ≠ pool → contents.Registered other →
      Registered { contents with projectPools := contents.projectPools.pop project } other := by
    rintro other hother ⟨owner, hget⟩
    refine ⟨owner, ?_⟩
    have howner : owner ≠ project := by
      rintro rfl
      exact hother (hdropped other hget).1
    simpa [howner] using hget
  have hunused : ∀ other, (contents.phase other).user ≠ some pool := by
    intro other huser
    obtain ⟨owner, hget⟩ := (hkept.task other).registered huser
    have howner : owner = project := by
      rw [hkept.registered owner pool hget] at hproject
      exact Option.some.inj hproject
    exact (hdropped pool (howner ▸ hget)).2 other huser
  have hstarts : phase.starts = none ∧ phase.stops = some pool := by
    rcases hafter with rfl | ⟨rest, rfl, -⟩ <;> exact ⟨rfl, rfl⟩
  refine { hkept with
    known := ?_, task := ?_, locked := ?_, custody := ?_, queued := ?_,
    unstarted := ?_, populated := ?_ }
  · exact fun item hitem => hkept.known item (Dict.mem_of_mem_pop hitem)
  · intro other
    by_cases hother : other = task
    · subst other
      have hstopping : Stopping
          { contents with projectPools := contents.projectPools.pop project } pool 0 :=
        ⟨hgone, by simp [hproject], by simp⟩
      simp only [Function.update_self]
      rcases hafter with rfl | ⟨rest, rfl, hcount, hrest⟩
      · exact hstopping
      · exact ⟨hstopping, hcount, hrest⟩
    · simp only [Function.update_of_ne hother]
      show TaskOk deployment { contents with
        project := contents.project
        poolsMade := contents.poolsMade
        projectPools := contents.projectPools.pop project } (contents.phase other)
      apply (hkept.task other).setRegistry
      · intro used huser
        apply hstays
        rintro rfl
        exact hunused other huser
      · exact fun stopped _ hdropped hregistered => hdropped (hweaker stopped hregistered)
      · exact fun _ _ howner => howner
  · intro other started hstarted
    by_cases hother : other = task
    · subst other
      simp [hstarts.1] at hstarted
    · exact hkept.locked other started (by simpa [hother] using hstarted)
  · intro worker hlive
    rcases hkept.custody worker hlive with hqueued | ⟨holder, hholder⟩ | ⟨⟨stopper, hstopper⟩, hmem⟩
    · by_cases hpool : worker.pool = pool
      · refine Or.inr (Or.inr ⟨⟨task, ?_⟩, hkept.queued _ hqueued.1 worker hqueued.2⟩)
        simpa [hpool] using hstarts.2
      · exact Or.inl ⟨hstays _ hpool hqueued.1, hqueued.2⟩
    · have hother : holder ≠ task := by
        rintro rfl
        rw [hbefore, hhand] at hholder
        cases hholder
      exact Or.inr (Or.inl ⟨holder, by simpa [hother] using hholder⟩)
    · have hother : stopper ≠ task := by
        rintro rfl
        rw [hbefore, hstops] at hstopper
        cases hstopper
      exact Or.inr (Or.inr ⟨⟨stopper, by simpa [hother] using hstopper⟩, hmem⟩)
  · exact fun other hother => hkept.queued other (hweaker other hother)
  · exact fun other hother => hkept.unstarted other (hweaker other hother)
  · intro other hother hpopulated
    apply hkept.populated other (hweaker other hother)
    rcases hpopulated with hworkers | ⟨starter, index, worker, hstarting⟩
    · exact Or.inl hworkers
    · have hstarter : starter ≠ task := by
        rintro rfl
        have hphase : phase = .starting other index (some worker) := by simpa using hstarting
        rw [hphase] at hstarts
        cases hstarts.1
      exact Or.inr ⟨starter, index, worker, by simpa [hstarter] using hstarting⟩

end

end Contents

end DbtCraft.Services.WarmPool

/-
# A worker is in one place

Whatever happens to the pools around it, a worker is held by one run at a time,
and by none while it waits in a queue. This needs no condition on the steps.
-/

import DbtCraft.Services.PoolCustody

namespace DbtCraft.Services.WarmPool

open DbtCraft.Math DbtCraft.Python

universe uπ uτ

variable {π : Type uπ} {τ : Type uτ} {deployment : Deployment π τ} {state next : State π τ}
  {contents : Contents π τ} {event : Event π τ} {events : List (Event π τ)} {task other : τ}
  {phase before : Phase π} {pool index made : ℕ} {worker : Worker}

namespace Contents

/-- Each worker is in the queue of its pool at most once, or in one hand; the
workers made later will be new. -/
structure Apart (contents : Contents π τ) (made : ℕ) : Prop where
  listed : ∀ pool, ∀ worker ∈ (contents.pool pool).workers, worker.pool = pool
  queued : ∀ pool, ∀ worker ∈ (contents.pool pool).available,
    worker.pool = pool ∧ worker.number < made
  inHand : ∀ task worker, (contents.phase task).hand = some worker →
    (contents.phase task).user = some worker.pool ∧ worker.number < made
  nodup : ∀ pool, (contents.pool pool).available.Nodup
  queueFree : ∀ pool, ∀ worker ∈ (contents.pool pool).available, ∀ task,
    (contents.phase task).hand ≠ some worker
  exclusive : ∀ task other worker, (contents.phase task).hand = some worker →
    (contents.phase other).hand = some worker → task = other

/-- The registry and the processes have no part in it. -/
theorem Apart.frame {project : ℕ → Option π} {poolsMade : ℕ} {projectPools : Dict π ℕ}
    {live : Finset Worker} (hapart : contents.Apart made) :
    Apart { contents with
      project := project, poolsMade := poolsMade, projectPools := projectPools, live := live }
      made :=
  { hapart with }

theorem Apart.setPool {updated : Pool τ} (hapart : contents.Apart made)
    (hworkers : ∀ worker ∈ updated.workers, worker.pool = pool)
    (havailable : updated.available.Sublist (contents.pool pool).available) :
    Apart { contents with pool := Function.update contents.pool pool updated } made := by
  have hqueued : ∀ other, ∀ worker ∈ (Function.update contents.pool pool updated other).available,
      worker ∈ (contents.pool other).available := by
    intro other worker hworker
    by_cases hother : other = pool
    · subst other
      exact havailable.subset (by simpa using hworker)
    · simpa [hother] using hworker
  refine { hapart with listed := ?_, queued := ?_, nodup := ?_, queueFree := ?_ }
  · intro other worker hworker
    by_cases hother : other = pool
    · subst other
      exact hworkers worker (by simpa using hworker)
    · exact hapart.listed other worker (by simpa [hother] using hworker)
  · exact fun other worker hworker => hapart.queued other worker (hqueued other worker hworker)
  · intro other
    by_cases hother : other = pool
    · subst other
      simpa using (hapart.nodup pool).sublist havailable
    · simpa [hother] using hapart.nodup other
  · exact fun other worker hworker => hapart.queueFree other worker (hqueued other worker hworker)

variable [DecidableEq τ]

/-- A task moves on with what it had in hand, or with nothing. -/
theorem Apart.setPhase (hapart : contents.Apart made) (hbefore : contents.phase task = before)
    (hhand : ∀ worker, phase.hand = some worker →
      before.hand = some worker ∧ phase.user = before.user) :
    Apart { contents with phase := Function.update contents.phase task phase } made := by
  subst hbefore
  have hheld : ∀ other worker,
      (Function.update contents.phase task phase other).hand = some worker →
        (contents.phase other).hand = some worker := by
    intro other worker hworker
    by_cases hother : other = task
    · subst other
      exact (hhand worker (by simpa using hworker)).1
    · simpa [hother] using hworker
  refine { hapart with inHand := ?_, queueFree := ?_, exclusive := ?_ }
  · intro other worker hworker
    obtain ⟨huser, hnumber⟩ := hapart.inHand other worker (hheld other worker hworker)
    refine ⟨?_, hnumber⟩
    by_cases hother : other = task
    · subst other
      have hsame := (hhand worker (by simpa using hworker)).2
      simpa [hsame] using huser
    · simpa [hother] using huser
  · exact fun pool worker hworker other hother =>
      hapart.queueFree pool worker hworker other (hheld other worker hother)
  · exact fun first second worker hfirst hsecond =>
      hapart.exclusive first second worker (hheld first worker hfirst) (hheld second worker hsecond)

theorem Apart.putBack {updated : Pool τ} (hapart : contents.Apart made)
    (hbefore : contents.phase task = before) (hhand : before.hand = some worker)
    (huser : before.user = some pool)
    (hworkers : ∀ worker ∈ updated.workers, worker.pool = pool)
    (havailable : updated.available = (contents.pool pool).available ++ [worker])
    (hafter : phase.hand = none) :
    Apart { contents with
      pool := Function.update contents.pool pool updated
      phase := Function.update contents.phase task phase } made := by
  subst hbefore
  obtain ⟨hpool, hnumber⟩ := hapart.inHand task worker hhand
  have hown : pool = worker.pool := Option.some.inj (huser.symm.trans hpool)
  have hheld : ∀ other member,
      (Function.update contents.phase task phase other).hand = some member →
        other ≠ task ∧ (contents.phase other).hand = some member := by
    intro other member hmember
    by_cases hother : other = task
    · subst other
      simp [hafter] at hmember
    · exact ⟨hother, by simpa [hother] using hmember⟩
  have hqueued : ∀ other, ∀ member ∈
      (Function.update contents.pool pool updated other).available,
      member ∈ (contents.pool other).available ∨ other = pool ∧ member = worker := by
    intro other member hmember
    by_cases hother : other = pool
    · subst other
      simp only [Function.update_self, havailable, List.mem_append, List.mem_singleton] at hmember
      exact hmember.imp_right fun hsame => ⟨rfl, hsame⟩
    · exact Or.inl (by simpa [hother] using hmember)
  constructor
  · intro other member hmember
    by_cases hother : other = pool
    · subst other
      exact hworkers member (by simpa using hmember)
    · exact hapart.listed other member (by simpa [hother] using hmember)
  · intro other member hmember
    rcases hqueued other member hmember with hold | ⟨rfl, rfl⟩
    · exact hapart.queued other member hold
    · exact ⟨hown.symm, hnumber⟩
  · intro other member hmember
    obtain ⟨hother, hold⟩ := hheld other member hmember
    simpa [hother] using hapart.inHand other member hold
  · intro other
    by_cases hother : other = pool
    · subst other
      simp only [Function.update_self, havailable]
      apply (hapart.nodup pool).append (List.nodup_singleton worker)
      intro member hold hnew
      rw [List.mem_singleton.mp hnew] at hold
      exact hapart.queueFree pool worker hold task hhand
    · simpa [hother] using hapart.nodup other
  · intro other member hmember holder hholder
    obtain ⟨hne, hold⟩ := hheld holder member hholder
    rcases hqueued other member hmember with hbefore | ⟨-, rfl⟩
    · exact hapart.queueFree other member hbefore holder hold
    · exact hne (hapart.exclusive holder task member hold hhand)
  · intro first second member hfirst hsecond
    exact hapart.exclusive first second member (hheld first member hfirst).2
      (hheld second member hsecond).2

theorem Apart.take {rest : List Worker} (hapart : contents.Apart made)
    (havailable : (contents.pool pool).available = worker :: rest) :
    Apart { contents with
      pool := Function.update contents.pool pool
        { contents.pool pool with available := rest }
      phase := Function.update contents.phase task (.preparing pool worker) } made := by
  have hmem : worker ∈ (contents.pool pool).available := by simp [havailable]
  have hnodup := hapart.nodup pool
  rw [havailable] at hnodup
  have hqueued : ∀ other, ∀ member ∈ (Function.update contents.pool pool
      { contents.pool pool with available := rest } other).available,
      member ∈ (contents.pool other).available ∧ member ≠ worker := by
    intro other member hmember
    by_cases hother : other = pool
    · subst other
      simp only [Function.update_self] at hmember
      refine ⟨by simp [havailable, hmember], ?_⟩
      rintro rfl
      exact (List.nodup_cons.mp hnodup).1 hmember
    · simp only [Function.update_of_ne hother] at hmember
      refine ⟨hmember, ?_⟩
      rintro rfl
      exact hother ((hapart.queued other member hmember).1.symm.trans
        (hapart.queued pool member hmem).1)
  have hheld : ∀ other member,
      (Function.update contents.phase task (.preparing pool worker) other).hand = some member →
        other = task ∧ member = worker ∨
          other ≠ task ∧ (contents.phase other).hand = some member := by
    intro other member hmember
    by_cases hother : other = task
    · subst other
      simp only [Function.update_self] at hmember
      exact Or.inl ⟨rfl, (Option.some.inj hmember).symm⟩
    · exact Or.inr ⟨hother, by simpa [hother] using hmember⟩
  constructor
  · intro other member hmember
    by_cases hother : other = pool
    · subst other
      exact hapart.listed pool member (by simpa using hmember)
    · exact hapart.listed other member (by simpa [hother] using hmember)
  · exact fun other member hmember => hapart.queued other member (hqueued other member hmember).1
  · intro other member hmember
    rcases hheld other member hmember with ⟨rfl, rfl⟩ | ⟨hother, hold⟩
    · obtain ⟨hown, hnumber⟩ := hapart.queued pool member hmem
      exact ⟨by simp [Phase.user, hown], hnumber⟩
    · simpa [hother] using hapart.inHand other member hold
  · intro other
    by_cases hother : other = pool
    · subst other
      simpa using (List.nodup_cons.mp hnodup).2
    · simpa [hother] using hapart.nodup other
  · intro other member hmember holder hholder
    obtain ⟨hbefore, hne⟩ := hqueued other member hmember
    rcases hheld holder member hholder with ⟨-, hsame⟩ | ⟨-, hold⟩
    · exact hne hsame
    · exact hapart.queueFree other member hbefore holder hold
  · intro first second member hfirst hsecond
    rcases hheld first member hfirst with ⟨hsame, hnew⟩ | ⟨-, hold⟩
    · rcases hheld second member hsecond with ⟨hsame', -⟩ | ⟨-, hold⟩
      · rw [hsame, hsame']
      · rw [hnew] at hold
        exact absurd hold (hapart.queueFree pool worker hmem second)
    · rcases hheld second member hsecond with ⟨-, hnew⟩ | ⟨-, hold'⟩
      · rw [hnew] at hold
        exact absurd hold (hapart.queueFree pool worker hmem first)
      · exact hapart.exclusive first second member hold hold'

theorem Apart.spawn (hapart : contents.Apart made)
    (hafter : phase.hand = some ⟨pool, made⟩) (huser : phase.user = some pool) :
    Apart { contents with phase := Function.update contents.phase task phase } (made + 1) := by
  have hheld : ∀ other member,
      (Function.update contents.phase task phase other).hand = some member →
        other = task ∧ member = ⟨pool, made⟩ ∨
          other ≠ task ∧ (contents.phase other).hand = some member := by
    intro other member hmember
    by_cases hother : other = task
    · subst other
      simp only [Function.update_self, hafter, Option.some.injEq] at hmember
      exact Or.inl ⟨rfl, hmember.symm⟩
    · exact Or.inr ⟨hother, by simpa [hother] using hmember⟩
  have hnew : ∀ other, (contents.phase other).hand ≠ some ⟨pool, made⟩ :=
    fun other hother => absurd (hapart.inHand other _ hother).2 (lt_irrefl made)
  refine { hapart with queued := ?_, inHand := ?_, queueFree := ?_, exclusive := ?_ }
  · intro other member hmember
    exact (hapart.queued other member hmember).imp_right Nat.lt_succ_of_lt
  · intro other member hmember
    rcases hheld other member hmember with ⟨rfl, rfl⟩ | ⟨hother, hold⟩
    · exact ⟨by simpa using huser, Nat.lt_succ_self made⟩
    · obtain ⟨hown, hnumber⟩ := hapart.inHand other member hold
      exact ⟨by simpa [hother] using hown, Nat.lt_succ_of_lt hnumber⟩
  · intro other member hmember holder hholder
    rcases hheld holder member hholder with ⟨-, rfl⟩ | ⟨-, hold⟩
    · exact absurd (hapart.queued other _ hmember).2 (lt_irrefl made)
    · exact hapart.queueFree other member hmember holder hold
  · intro first second member hfirst hsecond
    rcases hheld first member hfirst with ⟨hsame, hmade⟩ | ⟨-, hold⟩
    · rcases hheld second member hsecond with ⟨hsame', -⟩ | ⟨-, hold⟩
      · rw [hsame, hsame']
      · rw [hmade] at hold
        exact absurd hold (hnew second)
    · rcases hheld second member hsecond with ⟨-, hmade⟩ | ⟨-, hold'⟩
      · rw [hmade] at hold
        exact absurd hold (hnew first)
      · exact hapart.exclusive first second member hold hold'

end Contents

variable [LinearOrder π] [DecidableEq τ]

theorem apart_init : (machine deployment).init.Apart (machine deployment).init.workersMade where
  listed pool worker hworker := by cases hworker
  queued pool worker hworker := by cases hworker
  inHand task worker hhand := by cases hhand
  nodup pool := List.nodup_nil
  queueFree pool worker hworker := by cases hworker
  exclusive task other worker hhand := by cases hhand

open Contents in
theorem apart_step (hapart : state.Apart state.workersMade)
    (hstep : step deployment state event = some next) : next.Apart next.workersMade := by
  have hmoved : ∀ (task : τ) (phase : Phase π), phase.hand = none →
      Apart { state.toContents with phase := Function.update state.phase task phase }
        state.workersMade := by
    intro task phase hnone
    apply hapart.setPhase rfl
    intro worker hhand
    rw [hnone] at hhand
    cases hhand
  have hset : ∀ (task : τ) (phase : Phase π) (pool : ℕ) (updated : Pool τ),
      phase.hand = none → (∀ worker ∈ updated.workers, worker.pool = pool) →
      updated.available.Sublist (state.pool pool).available →
      Apart { state.toContents with
        pool := Function.update state.pool pool updated
        phase := Function.update state.phase task phase } state.workersMade :=
    fun task phase pool updated hnone hworkers havailable =>
      (hmoved task phase hnone).setPool hworkers havailable
  have hkeeps : ∀ (task : τ) (before phase : Phase π), state.phase task = before →
      phase.hand = before.hand → phase.user = before.user →
      Apart { state.toContents with phase := Function.update state.phase task phase }
        state.workersMade := by
    intro task before phase hbefore hhand huser
    apply hapart.setPhase hbefore
    exact fun worker hworker => ⟨hhand ▸ hworker, huser⟩
  have hgrown : ∀ {task : τ} {pool index : ℕ} {worker : Worker},
      state.phase task = .starting pool index (some worker) →
      ∀ member ∈ (state.pool pool).workers ++ [worker], member.pool = pool := by
    intro task pool index worker hphase member hmember
    have hown := hapart.inHand task worker (by rw [hphase]; rfl)
    rw [hphase] at hown
    rcases List.mem_append.mp hmember with hold | hnew
    · exact hapart.listed pool member hold
    · rw [List.mem_singleton.mp hnew]
      exact (Option.some.inj hown.1).symm
  cases stepped_of_step hstep with
  | reclaim _ _ _ | evict _ _ _ | stopReclaimed _ _ | stopReleased _ _ | release _ _ _ =>
    exact (hmoved _ _ rfl).frame
  | openPool _ _ =>
    exact (hset _ (.entering state.poolsMade) state.poolsMade {} rfl (by simp)
      (List.nil_sublist _)).frame
  | reclaimed _ _ | released _ _ =>
    exact hset _ _ _ _ rfl (by simp [Pool.clear]) (List.Sublist.refl _)
  | beginStart _ _ _ | abandonStart _ =>
    exact hset _ _ _ _ rfl (hapart.listed _) (List.Sublist.refl _)
  | @spawn task pool index hphase =>
    have hspawned : Apart { state.toContents with
        phase := Function.update state.phase task
          (.starting pool index (some ⟨pool, state.workersMade⟩)) }
        (state.workersMade + 1) := hapart.spawn rfl rfl
    exact hspawned.frame
  | revive _ _ | exit _ => exact hapart.frame
  | readyMore hphase _ _ | readyLast hphase _ =>
    exact hapart.putBack hphase rfl rfl (hgrown hphase) rfl rfl
  | restarted hphase _ | complete hphase =>
    exact hapart.putBack hphase rfl rfl (hapart.listed _) rfl rfl
  | take _ havailable => exact hapart.take havailable
  | submit hphase _ | recycle hphase | abandonStop hphase => exact hkeeps _ _ _ hphase rfl rfl
  | stopFailing hphase => exact (hkeeps _ _ (.recycling _ _) hphase rfl rfl).frame
  | stopRecycling hphase => exact (hkeeps _ _ (.restarting _ _) hphase rfl rfl).frame
  | fail hphase =>
    rcases hphase with hphase | hphase <;> exact hkeeps _ _ _ hphase rfl rfl
  | tick => exact hapart
  | acquire _ _ _ | giveUp _ | sweep _ | choose _ _ | enter _ _ | queueTimeout _
  | abandonReclaim _ | abandonRelease _ | abandonEntry _ | abandonWait _ | abandonPut _
  | releaseNone _ _ => exact hmoved _ _ rfl

/-- No two runs hold one worker, along any run. -/
theorem hand_unique_of_path (hpath : (machine deployment).Path Machine.anyStep events state)
    (htask : (state.phase task).hand = some worker)
    (hother : (state.phase other).hand = some worker) : task = other := by
  have hapart := hpath.invariant (P := fun state => state.Apart state.workersMade) apart_init
    fun h _ hstep => apart_step h hstep
  exact hapart.exclusive task other worker htask hother

/-- Two runs on a project. -/
def twoRuns : Deployment ℕ (Fin 2) where
  settings := {}
  job _ := .run 0

/-- The second run has to wait for the worker of the first. -/
theorem hand_ne_of_two_runs :
    ∃ events state, (machine twoRuns).Path Machine.anyStep events state ∧
      (state.phase 0).hand = some ⟨0, 0⟩ ∧ (state.phase 1).hand ≠ some ⟨0, 0⟩ := by
  obtain ⟨state, hrun, hhand⟩ : ∃ state, (machine twoRuns).runFrom (machine twoRuns).init
      [.acquire 0, .acquire 1, .choose 0, .beginStart 0, .spawn 0, .ready 0, .take 0] = some state ∧
      (state.phase 0).hand = some ⟨0, 0⟩ := ⟨_, rfl, rfl⟩
  have hpath := Machine.path_of_runFrom hrun
  refine ⟨_, state, hpath, hhand, fun hother => ?_⟩
  have hsame : (0 : Fin 2) = 1 := hand_unique_of_path hpath hhand hother
  cases hsame

end DbtCraft.Services.WarmPool

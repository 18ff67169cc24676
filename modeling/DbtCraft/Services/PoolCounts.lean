/-
# The counters of the worker pool

`in_use` and the capacity semaphore count tasks. They are right as long as no
task is interrupted where it has counted itself and nothing counts it out again:
in the queue of a pool, and in the sweep before the `try` of `run`.
-/

import DbtCraft.Math.Holders
import DbtCraft.Services.WarmPool
import Mathlib.Data.Fintype.Basic

namespace DbtCraft.Services.WarmPool

open DbtCraft.Math DbtCraft.Python

universe uπ uτ

variable {π : Type uπ} {τ : Type uτ} {deployment : Deployment π τ} {state next : State π τ}
  {event : Event π τ} {task : τ} {phase : Phase π} {pool : ℕ}

/-- The pool a run refers to. -/
def Phase.user : Phase π → Option ℕ
  | .entering pool | .starting pool _ _ | .waiting pool | .preparing pool _
  | .executing pool _ | .failing pool _ | .recycling pool _ | .restarting pool _ => some pool
  | .idle | .sweeping _ | .reclaiming _ _ _ | .releasing _ _ | .finished => none

/-- The pool whose worker a run holds or waits for. -/
def Phase.counted : Phase π → Option ℕ
  | .waiting pool | .preparing pool _ | .executing pool _ | .failing pool _
  | .recycling pool _ | .restarting pool _ => some pool
  | .idle | .sweeping _ | .reclaiming _ _ _ | .entering _ | .starting _ _ _
  | .releasing _ _ | .finished => none

/-- The runs that hold or wait for a worker of one pool. -/
def Phase.CountedIn (pool : ℕ) (phase : Phase π) : Prop := phase.counted = some pool

/-- A run in progress: past the semaphore, and not ended. -/
def Phase.Running : Phase π → Prop
  | .sweeping _ | .reclaiming _ _ _ | .entering _ | .starting _ _ _ | .waiting _
  | .preparing _ _ | .executing _ _ | .failing _ _ | .recycling _ _ | .restarting _ _ => True
  | .idle | .releasing _ _ | .finished => False

theorem Phase.user_of_counted (hcounted : phase.counted = some pool) :
    phase.user = some pool := by
  cases phase <;> first | exact hcounted | cases hcounted

/-- The free permits and the runs in progress make up the capacity. -/
def PermitsRight (deployment : Deployment π τ) (state : State π τ) : Prop :=
  state.permits + tally state.phase Phase.Running = deployment.capacity

/-- A pool is in use by the runs that hold or wait for one of its workers. -/
def InUseRight (state : State π τ) : Prop :=
  ∀ pool, (state.inUse pool : ℕ∞) = tally state.phase (Phase.CountedIn pool)

/-- No run refers to a pool. -/
def State.Unused (state : State π τ) (pool : ℕ) : Prop :=
  ∀ task, (state.phase task).user ≠ some pool

/-- The idle sweep drops the pool it then stops, and no run refers to that. -/
def State.MaySweep [LinearOrder π] (deployment : Deployment π τ) (state : State π τ) (task : τ) :
    Phase π → Prop
  | .sweeping ((project, pool) :: _) =>
    state.Candidate deployment task (project, pool) →
      deployment.idleAfter ≤ state.now - state.lastUsed pool →
      ∀ dropped ∈ state.projectPools.get project, dropped = pool ∧ state.Unused pool
  | _ => True

/-- A pool starts a worker once those of the project's dropped pools have exited. -/
def State.MaySpawn (state : State π τ) : Phase π → Prop
  | .starting pool _ none =>
    ∀ worker ∈ state.live, state.project worker.pool = state.project pool → worker.pool = pool
  | _ => True

/-- An interrupt leaves no permit, no count and no live worker behind. -/
def State.MayEnd (state : State π τ) : Phase π → Prop
  | .reclaiming _ _ _ | .waiting _ => False
  | .starting pool _ worker =>
    (state.pool pool).workers = [] ∧ ∀ started ∈ worker, started ∉ state.live
  | .recycling _ worker | .restarting _ worker => worker ∉ state.live
  | .releasing pool _ => ∀ worker ∈ (state.pool pool).workers, worker ∉ state.live
  | _ => True

/-- The steps that keep the pool's accounts. -/
def Careful [LinearOrder π] (deployment : Deployment π τ) (state : State π τ)
    (event : Event π τ) : Prop :=
  match event with
  | .sweep task => state.MaySweep deployment task (state.phase task)
  | .evict _ project => ∀ dropped ∈ state.projectPools.get project, state.Unused dropped
  | .release task =>
    ∀ dropped ∈ state.projectPools.get (deployment.project task), state.Unused dropped
  | .spawn task => state.MaySpawn (state.phase task)
  | .interrupt task => state.MayEnd (state.phase task)
  | _ => True

instance [Fintype τ] (state : State π τ) (pool : ℕ) : Decidable (state.Unused pool) :=
  inferInstanceAs (Decidable (∀ task, (state.phase task).user ≠ some pool))

instance [LinearOrder π] [Fintype τ] (deployment : Deployment π τ) (state : State π τ) (task : τ)
    (phase : Phase π) : Decidable (state.MaySweep deployment task phase) := by
  cases phase with
  | sweeping rest => cases rest <;> unfold State.MaySweep <;> infer_instance
  | _ => unfold State.MaySweep; infer_instance

instance [DecidableEq π] (state : State π τ) (phase : Phase π) :
    Decidable (state.MaySpawn phase) := by
  cases phase with
  | starting pool index worker => cases worker <;> unfold State.MaySpawn <;> infer_instance
  | _ => unfold State.MaySpawn; infer_instance

instance (state : State π τ) (phase : Phase π) : Decidable (state.MayEnd phase) := by
  cases phase <;> unfold State.MayEnd <;> infer_instance

instance [LinearOrder π] [Fintype τ] (deployment : Deployment π τ) (state : State π τ)
    (event : Event π τ) : Decidable (Careful deployment state event) := by
  cases event <;> unfold Careful <;> infer_instance

variable [DecidableEq τ]

/-! ## The capacity semaphore -/

/-- A change of phase that keeps the permit, or keeps having none. -/
theorem PermitsRight.move (hright : PermitsRight deployment state)
    (hphase : next.phase = Function.update state.phase task phase)
    (hpermits : next.permits = state.permits)
    (hrunning : phase.Running ↔ (state.phase task).Running) : PermitsRight deployment next := by
  unfold PermitsRight
  rw [hphase, hpermits, tally_update_of_iff hrunning]
  exact hright

theorem PermitsRight.finish (hright : PermitsRight deployment state)
    (hphase : next.phase = Function.update state.phase task .finished)
    (hpermits : next.permits = state.permits + 1) (hrunning : (state.phase task).Running) :
    PermitsRight deployment next := by
  have hsum : (state.permits : ℕ∞) + tally state.phase Phase.Running = deployment.capacity :=
    hright
  rw [← tally_update_of_leave hrunning (id : ¬ (Phase.finished : Phase π).Running)] at hsum
  unfold PermitsRight
  rw [hphase, hpermits, ← hsum, Nat.cast_add, Nat.cast_one, add_right_comm, add_assoc]

theorem PermitsRight.take (hright : PermitsRight deployment state) {rest : List (π × ℕ)}
    (hphase : next.phase = Function.update state.phase task (.sweeping rest))
    (hpermits : next.permits = state.permits - 1) (hidle : state.phase task = .idle)
    (hfree : 0 < state.permits) : PermitsRight deployment next := by
  have hbefore : ¬ (state.phase task).Running := by
    rw [hidle]
    exact id
  have hafter : (Phase.sweeping rest).Running := trivial
  have hone : ((state.permits - 1 : ℕ) : ℕ∞) + 1 = state.permits := by
    exact_mod_cast Nat.sub_add_cancel hfree
  unfold PermitsRight
  rw [hphase, hpermits, tally_update_of_enter hbefore hafter, add_comm _ (1 : ℕ∞), ← add_assoc,
    hone]
  exact hright

/-! ## `in_use` -/

/-- A change of phase that counts in the same pool as before. -/
theorem InUseRight.move (hright : InUseRight state)
    (hphase : next.phase = Function.update state.phase task phase)
    (hinUse : next.inUse = state.inUse)
    (hcounted : phase.counted = (state.phase task).counted) : InUseRight next := by
  intro pool
  rw [hphase, hinUse, tally_update_of_iff]
  · exact hright pool
  · unfold Phase.CountedIn
    rw [hcounted]

theorem InUseRight.enqueue (hright : InUseRight state)
    (hphase : next.phase = Function.update state.phase task (.waiting pool))
    (hinUse : next.inUse = Function.update state.inUse pool (state.inUse pool + 1))
    (hcounted : (state.phase task).counted = none) : InUseRight next := by
  intro other
  rw [hphase, hinUse]
  have hbefore : ¬ (state.phase task).CountedIn other := by simp [Phase.CountedIn, hcounted]
  by_cases hpool : other = pool
  · subst other
    have hafter : (Phase.waiting pool : Phase π).CountedIn pool := rfl
    rw [tally_update_of_enter hbefore hafter, Function.update_self, ← hright pool]
    exact Nat.cast_add _ _
  · rw [tally_update_of_iff, Function.update_of_ne hpool]
    · exact hright other
    · simp [Phase.CountedIn, hcounted, Phase.counted.eq_def, Ne.symm hpool]

theorem InUseRight.leave (hright : InUseRight state)
    (hphase : next.phase = Function.update state.phase task .finished)
    (hinUse : next.inUse = Function.update state.inUse pool (state.inUse pool - 1))
    (hcounted : (state.phase task).counted = some pool) : InUseRight next := by
  intro other
  rw [hphase, hinUse]
  have hafter : ¬ (Phase.finished : Phase π).CountedIn other := by
    simp [Phase.CountedIn, Phase.counted]
  by_cases hpool : other = pool
  · subst other
    have hbefore : (state.phase task).CountedIn pool := hcounted
    have hone := tally_update_of_leave hbefore hafter
    rw [← hright pool] at hone
    rw [Function.update_self]
    have hpositive : state.inUse pool ≠ 0 := by
      intro hzero
      rw [hzero] at hone
      simp at hone
    have hsucc : ((state.inUse pool - 1 : ℕ) : ℕ∞) + 1 = state.inUse pool := by
      exact_mod_cast Nat.sub_add_cancel (Nat.pos_of_ne_zero hpositive)
    rw [← hsucc] at hone
    exact (ENat.add_left_injective_of_ne_top (by simp) hone).symm
  · rw [tally_update_of_iff, Function.update_of_ne hpool]
    · exact hright other
    · have hbefore : ¬ (state.phase task).CountedIn other := by
        intro hother
        exact hpool (Option.some.inj (hother.symm.trans hcounted))
      exact iff_of_false hafter hbefore

/-! ## Both -/

/-- What the counters of the pool say. -/
structure CountsRight (deployment : Deployment π τ) (state : State π τ) : Prop where
  permits : PermitsRight deployment state
  inUse : InUseRight state

theorem countsRight_init [LinearOrder π] : CountsRight deployment (machine deployment).init where
  permits := by
    unfold PermitsRight
    rw [tally_eq_zero]
    · exact add_zero _
    · exact fun _ => id
  inUse pool := by
    rw [tally_eq_zero]
    · rfl
    · intro task
      simp [Phase.CountedIn, machine, Phase.counted]

variable {before : Phase π}

theorem CountsRight.move (hright : CountsRight deployment state)
    (hbefore : state.phase task = before)
    (hphase : next.phase = Function.update state.phase task phase)
    (hpermits : next.permits = state.permits) (hinUse : next.inUse = state.inUse)
    (hrunning : phase.Running ↔ before.Running) (hcounted : phase.counted = before.counted) :
    CountsRight deployment next := by
  subst hbefore
  exact ⟨hright.permits.move hphase hpermits hrunning, hright.inUse.move hphase hinUse hcounted⟩

theorem CountsRight.finish (hright : CountsRight deployment state)
    (hbefore : state.phase task = before)
    (hphase : next.phase = Function.update state.phase task .finished)
    (hpermits : next.permits = state.permits + 1) (hinUse : next.inUse = state.inUse)
    (hrunning : before.Running) (hcounted : before.counted = none) :
    CountsRight deployment next := by
  subst hbefore
  exact ⟨hright.permits.finish hphase hpermits hrunning,
    hright.inUse.move hphase hinUse hcounted.symm⟩

theorem CountsRight.leave (hright : CountsRight deployment state)
    (hbefore : state.phase task = before)
    (hphase : next.phase = Function.update state.phase task .finished)
    (hpermits : next.permits = state.permits + 1)
    (hinUse : next.inUse = Function.update state.inUse pool (state.inUse pool - 1))
    (hrunning : before.Running) (hcounted : before.counted = some pool) :
    CountsRight deployment next := by
  subst hbefore
  exact ⟨hright.permits.finish hphase hpermits hrunning,
    hright.inUse.leave hphase hinUse hcounted⟩

theorem CountsRight.enqueue (hright : CountsRight deployment state)
    (hbefore : state.phase task = before)
    (hphase : next.phase = Function.update state.phase task (.waiting pool))
    (hpermits : next.permits = state.permits)
    (hinUse : next.inUse = Function.update state.inUse pool (state.inUse pool + 1))
    (hrunning : before.Running) (hcounted : before.counted = none) :
    CountsRight deployment next := by
  subst hbefore
  exact ⟨hright.permits.move hphase hpermits (iff_of_true trivial hrunning),
    hright.inUse.enqueue hphase hinUse hcounted⟩

theorem countsRight_step [LinearOrder π] (hright : CountsRight deployment state)
    (hfresh : state.Unused state.poolsMade) (hcareful : Careful deployment state event)
    (hstep : step deployment state event = some next) : CountsRight deployment next := by
  cases stepped_of_step hstep with
  | acquire hphase _ hpermits =>
    exact ⟨hright.permits.take rfl rfl hphase hpermits,
      hright.inUse.move rfl rfl (by rw [hphase]; rfl)⟩
  | openPool hphase _ =>
    -- Nothing is counted in a pool before it is made.
    have hzero : state.inUse state.poolsMade = 0 := by
      have hnone : tally state.phase (Phase.CountedIn state.poolsMade) = 0 :=
        tally_eq_zero fun other hcounted => hfresh other (Phase.user_of_counted hcounted)
      rw [← hright.inUse] at hnone
      exact_mod_cast hnone
    exact hright.move hphase rfl rfl (Function.update_eq_self_iff.mpr hzero.symm) Iff.rfl rfl
  | enter hphase _ | readyLast hphase _ => exact hright.enqueue hphase rfl rfl rfl trivial rfl
  | restarted hphase _ | queueTimeout hphase | complete hphase =>
    exact hright.leave hphase rfl rfl rfl trivial rfl
  | abandonPut hphase =>
    rcases hphase with hphase | hphase
    · exact hright.leave hphase rfl rfl rfl trivial rfl
    · exact hright.leave hphase rfl rfl rfl trivial rfl
  | abandonEntry hphase | abandonStart hphase =>
    exact hright.finish hphase rfl rfl rfl trivial rfl
  | abandonReclaim hphase | abandonWait hphase =>
    simp only [Careful, hphase] at hcareful
    exact hcareful.elim
  | fail hphase =>
    rcases hphase with hphase | hphase
    · exact hright.move hphase rfl rfl rfl Iff.rfl rfl
    · exact hright.move hphase rfl rfl rfl Iff.rfl rfl
  | revive _ _ | exit _ | tick => exact ⟨hright.permits, hright.inUse⟩
  | giveUp hphase | reclaim hphase _ _ | sweep hphase | evict hphase _ _ | choose hphase _
  | stopReclaimed hphase _ | stopReleased hphase _ | reclaimed hphase _ | released hphase _
  | beginStart hphase _ _ | spawn hphase | readyMore hphase _ _ | take hphase _ | submit hphase _
  | recycle hphase | stopFailing hphase | stopRecycling hphase | abandonRelease hphase
  | abandonStop hphase | release hphase _ _ | releaseNone hphase _ =>
    exact hright.move hphase rfl rfl rfl Iff.rfl rfl

end DbtCraft.Services.WarmPool

/-
# Conservation of the worker pool

Along careful runs no worker is lost, no project has more workers than it may,
and both counters are right. What the careless steps do: a pool dropped under a
run gets the run's worker back, restarted, where nobody finds it.
-/

import DbtCraft.Services.PoolCustody

namespace DbtCraft.Services.WarmPool

open DbtCraft.Math DbtCraft.Python

universe uπ uτ

variable {π : Type uπ} {τ : Type uτ} [LinearOrder π] [DecidableEq τ]
  {deployment : Deployment π τ} {state next : State π τ} {event : Event π τ}
  {events : List (Event π τ)}

theorem kept_init : (machine deployment).init.Kept deployment where
  known item hitem := by cases hitem
  fresh pool _ := rfl
  task task := trivial
  locked task pool hstarts := by cases hstarts
  custody worker hlive := by simp [machine] at hlive
  queued pool _ worker hworker := by cases hworker
  own pool worker hworker := by cases hworker
  room pool := Nat.zero_le _
  unstarted pool _ _ _ := rfl
  solo worker hlive := by simp [machine] at hlive
  populated pool hregistered := by
    obtain ⟨project, hget⟩ := hregistered
    cases hget

open Contents in
theorem kept_step (hkept : state.Kept deployment) (hcareful : Careful deployment state event)
    (hstep : step deployment state event = some next) : next.Kept deployment := by
  have hok : ∀ {task : τ} {phase : Phase π}, state.phase task = phase →
      state.TaskOk deployment phase := fun hphase => hphase ▸ hkept.task _
  cases stepped_of_step hstep with
  | acquire hphase hruns _ =>
    refine hkept.move hphase ⟨?_, ?_⟩ rfl (Or.inl rfl) (Or.inl rfl)
    · unfold Deployment.runs at hruns
      split at hruns
      · simp only [Bool.and_eq_true, decide_eq_true_eq] at hruns
        exact hruns.2
      · cases hruns
    · split
      · exact hkept.known
      · simp [Known]
  | giveUp hphase | queueTimeout hphase | abandonEntry hphase | releaseNone hphase _ =>
    exact hkept.move hphase trivial rfl (Or.inl rfl) (Or.inl rfl)
  | reclaim hphase hcandidate hidle =>
    obtain ⟨hruns, hknown⟩ := hok hphase
    simp only [Careful, hphase] at hcareful
    apply hkept.dropPool hphase rfl rfl
    · exact hknown _ List.mem_cons_self
    · exact hcareful hcandidate hidle
    · exact Or.inr ⟨_, rfl, hruns, fun item hitem => hknown item (List.mem_cons_of_mem _ hitem)⟩
  | sweep hphase =>
    obtain ⟨hruns, hknown⟩ := hok hphase
    refine hkept.move hphase ⟨hruns, fun item hitem => ?_⟩ rfl (Or.inl rfl) (Or.inl rfl)
    exact hknown item (List.mem_cons_of_mem _ hitem)
  | @evict task victim pool hphase hget hcandidate =>
    apply hkept.dropPool hphase rfl rfl (hkept.registered _ _ hget)
    · intro dropped hdropped
      rw [hget] at hdropped
      cases hdropped
      exact ⟨rfl, hcareful pool hget⟩
    · exact Or.inr ⟨[], rfl, (hok hphase).1, by simp [Known]⟩
  | choose hphase hget =>
    exact hkept.move hphase ⟨⟨_, hget⟩, (hok hphase).1⟩ rfl (Or.inl rfl) (Or.inl rfl)
  | @openPool task hphase hget =>
    apply (hkept.openPool hget).move hphase _ rfl (Or.inl rfl) (Or.inl rfl)
    exact ⟨⟨deployment.project task, by simp⟩, (hok hphase).1⟩
  | stopReclaimed hphase hworker =>
    exact (hkept.kill _).move hphase ⟨(hok hphase).1.stopWorker hworker, (hok hphase).2⟩ rfl
      (Or.inl rfl) (Or.inr rfl)
  | stopReleased hphase hworker =>
    have hstopping := hok hphase
    exact (hkept.kill _).move hphase (hstopping.stopWorker hworker) rfl (Or.inl rfl) (Or.inr rfl)
  | reclaimed hphase hend =>
    obtain ⟨hstopping, hrest⟩ := hok hphase
    have hnone := hkept.none_live_of_stopped hstopping hend
    apply (hkept.clear hstopping.1 hnone).leave hphase _ rfl
    · intro other _ hhand
      cases hhand
    · intro other hstops
      cases hstops
      exact hnone
    · exact hrest
  | released hphase hend =>
    have hstopping := hok hphase
    have hnone := hkept.none_live_of_stopped hstopping hend
    apply (hkept.clear hstopping.1 hnone).leave hphase _ rfl
    · intro other _ hhand
      cases hhand
    · intro other hstops
      cases hstops
      exact hnone
    · exact trivial
  | enter hphase _ => exact hkept.move hphase (hok hphase).1 rfl (Or.inl rfl) (Or.inl rfl)
  | beginStart hphase hfree hunstarted => exact hkept.beginStart hphase hfree hunstarted
  | spawn hphase =>
    simp only [Careful, hphase] at hcareful
    exact hkept.spawn hphase rfl hcareful
  | revive hphase _ =>
    rcases hphase with hphase | hphase
    all_goals exact hkept.revive (by rw [hphase]; rfl) (hkept.alone (hok hphase).1 (hok hphase).2)
  | @readyMore task pool _ _ hphase _ hmore =>
    apply hkept.append hphase rfl rfl
    exact Or.inl ⟨rfl, hmore, hkept.locked task pool (by rw [hphase]; rfl)⟩
  | readyLast hphase _ => exact hkept.append hphase rfl rfl (Or.inr ⟨rfl, rfl⟩)
  | restarted hphase _ | complete hphase =>
    exact hkept.putBack hphase rfl (hok hphase).1 (hok hphase).2
  | take hphase havailable => exact hkept.take hphase havailable
  | submit hphase _ | recycle hphase | abandonStop hphase =>
    have hstays := hok hphase
    exact hkept.move hphase hstays rfl (Or.inr rfl) (Or.inl rfl)
  | stopFailing hphase | stopRecycling hphase =>
    have hstays := hok hphase
    exact (hkept.kill _).move hphase hstays rfl (Or.inr rfl) (Or.inl rfl)
  | abandonReclaim hphase | abandonWait hphase =>
    simp only [Careful, hphase] at hcareful
    exact hcareful.elim
  | abandonStart hphase =>
    simp only [Careful, hphase] at hcareful
    exact hkept.abandonStart hphase hcareful.1 hcareful.2
  | fail hphase =>
    rcases hphase with hphase | hphase
    all_goals
      have hstays := hok hphase
      exact hkept.move hphase hstays rfl (Or.inr rfl) (Or.inl rfl)
  | abandonPut hphase =>
    rcases hphase with hphase | hphase
    all_goals
      simp only [Careful, hphase] at hcareful
      apply hkept.leave hphase _ rfl
      · intro other hlive hhand
        cases hhand
        exact absurd hlive hcareful
      · intro other hstops
        cases hstops
      · exact trivial
  | abandonRelease hphase =>
    simp only [Careful, hphase] at hcareful
    have hstopping := hok hphase
    apply hkept.leave hphase _ rfl
    · intro other _ hhand
      cases hhand
    · intro other hstops worker hlive hpool
      cases hstops
      subst hpool
      exact hcareful worker (hkept.mem_workers_of_dropped hlive hstopping.1) hlive
    · exact trivial
  | @release task project cancel pool hphase hjob hget =>
    have hproject : deployment.project task = project := by
      simp [Deployment.project, hjob]
    apply hkept.dropPool hphase rfl rfl (hkept.registered _ _ hget)
    · intro dropped hdropped
      rw [hget] at hdropped
      cases hdropped
      exact ⟨rfl, hcareful pool (by rw [hproject]; exact hget)⟩
    · exact Or.inl rfl
  | exit _ => exact hkept.kill _
  | tick => exact hkept

/-- What the pool accounts for: every live worker is queued in a registered pool,
in the hands of a run or in a pool being stopped; a project has at most
`worker_count` of them; `in_use` counts the runs that hold or wait for a worker;
and the free permits and the runs in progress make up the capacity. -/
structure Conserved (deployment : Deployment π τ) (state : State π τ) : Prop where
  custody : ∀ worker ∈ state.live, state.Custody worker
  bounded : ∀ project,
    (state.live.filter fun worker => state.project worker.pool = some project).card ≤
      deployment.workerCount
  inUse : InUseRight state
  permits : PermitsRight deployment state

open Contents in
/-- The pool conserves its workers and its counts along every run of careful
steps. -/
theorem conserved_of_careful_steps
    (hpath : (machine deployment).Path (Careful deployment) events state) :
    Conserved deployment state := by
  have hinvariant : state.Kept deployment ∧ CountsRight deployment state := by
    apply hpath.invariant ⟨kept_init, countsRight_init⟩
    intro source event target hsource hcareful hstep
    refine ⟨kept_step hsource.1 hcareful hstep, countsRight_step hsource.2 ?_ hcareful hstep⟩
    intro task huser
    have hmade := hsource.1.project_of_registered ((hsource.1.task task).registered huser)
    exact hmade (hsource.1.fresh _ le_rfl)
  obtain ⟨hkept, hcounts⟩ := hinvariant
  exact ⟨hkept.custody, hkept.card_live_le, hcounts.inUse, hcounts.permits⟩

/-- A run on a project, and a release of its workers. -/
def runAndRelease : Deployment ℕ (Fin 2) where
  settings := {}
  job
    | 0 => .run 0
    | 1 => .release 0 false

/-- A release that comes after the run stops the worker for good. -/
theorem conserved_of_release_after_run :
    ∃ events state, (machine runAndRelease).Path (Careful runAndRelease) events state ∧
      state.phase 0 = .finished ∧ state.phase 1 = .finished ∧ state.live = ∅ ∧
      Conserved runAndRelease state := by
  obtain ⟨state, hrun, hfirst, hsecond, hlive⟩ :
      ∃ state, (machine runAndRelease).runUnder (Careful runAndRelease)
        (machine runAndRelease).init
        [.acquire 0, .choose 0, .beginStart 0, .spawn 0, .ready 0, .take 0, .submit 0,
          .complete 0, .release 1, .stopWorker 1, .stopped 1] = some state ∧
        state.phase 0 = .finished ∧ state.phase 1 = .finished ∧ state.live = ∅ :=
    ⟨_, rfl, rfl, rfl, rfl⟩
  have hpath := Machine.path_of_runUnder hrun
  exact ⟨_, state, hpath, hfirst, hsecond, hlive, conserved_of_careful_steps hpath⟩

/-- A release under the run leaves its worker, restarted, in a pool that nobody
knows. -/
theorem not_conserved_of_release_under_run :
    ¬ ∀ (deployment : Deployment ℕ (Fin 2)) events state,
      (machine deployment).Path Machine.anyStep events state → Conserved deployment state := by
  intro hclaim
  obtain ⟨state, hrun, hfirst, hsecond, hpools, hlive⟩ :
      ∃ state, (machine runAndRelease).runFrom (machine runAndRelease).init
        [.acquire 0, .choose 0, .beginStart 0, .spawn 0, .ready 0, .take 0, .submit 0,
          .release 1, .stopWorker 1, .stopped 1, .interrupt 0, .stopOwn 0, .stopOwn 0,
          .spawn 0, .ready 0] = some state ∧
        state.phase 0 = .finished ∧ state.phase 1 = .finished ∧ state.projectPools = [] ∧
        state.live = {⟨0, 0⟩} := ⟨_, rfl, rfl, rfl, rfl, rfl⟩
  have hconserved := hclaim _ _ _ (Machine.path_of_runFrom hrun)
  have hidle : ∀ task, state.phase task = .finished := by
    intro task
    match task with
    | 0 => exact hfirst
    | 1 => exact hsecond
  rcases hconserved.custody ⟨0, 0⟩ (by simp [hlive]) with
    ⟨⟨project, hget⟩, -⟩ | ⟨task, hhand⟩ | ⟨⟨task, hstops⟩, -⟩
  · rw [hpools] at hget
    cases hget
  · rw [hidle task] at hhand
    cases hhand
  · rw [hidle task] at hstops
    cases hstops

end DbtCraft.Services.WarmPool

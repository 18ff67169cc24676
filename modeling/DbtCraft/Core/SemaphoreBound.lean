/-
# The bound of a global semaphore

The acquisition script alone keeps the sorted set within the limit and gives
every body its own member. Renewal is an unconditional `ZADD`: after its holder's
lease ended and another call took the slot, it inserts the holder a second time.
The bound holds along every run in which no acquisition purges the token of a
call that still holds its slot, and no renewal inserts a token that is gone into
a full set.
-/

import DbtCraft.Core.GlobalSemaphore
import DbtCraft.Math.Holders

namespace DbtCraft.Core.GlobalSemaphore

open DbtCraft.Math DbtCraft.Redis

universe uι

variable {ι : Type uι} [DecidableEq ι] {callers : ι → Caller} {limit : ℤ}
  {state next : State ι} {event : Event ι} {events : List (Event ι)} {call : ι}

/-- A call has its slot: the script answered 1 and the body has not ended. -/
def Phase.Holding (phase : Phase) : Prop := phase = .entering ∨ phase = .inside

instance (phase : Phase) : Decidable phase.Holding :=
  inferInstanceAs (Decidable (_ ∨ _))

/-- The clock of an event that runs the acquisition script. -/
def Event.scriptTime : Event ι → Option ℤ
  | .tryAcquire _ now | .cancelAcquire _ now true => some now
  | _ => none

/-- No acquisition purges the token of a call that has its slot. -/
def LeasesLive (state : State ι) (event : Event ι) : Prop :=
  ∀ now ∈ event.scriptTime, ∀ token ∈ state.leases.members,
    (state.phase token).Holding → now < state.leases.score token

/-- A renewal that reaches Redis finds its token there, or room for it. -/
def RenewalFits (limit : ℤ) (state : State ι) (event : Event ι) : Prop :=
  match event with
  | .renewed call _ => call ∈ state.leases.members ∨ (state.leases.card : ℤ) < limit
  | _ => True

/-- The steps of the runs in which the semaphore does what it is for. -/
def SafeStep (limit : ℤ) (state : State ι) (event : Event ι) : Prop :=
  LeasesLive state event ∧ RenewalFits limit state event

instance (state : State ι) (event : Event ι) : Decidable (LeasesLive state event) :=
  inferInstanceAs (Decidable (∀ now ∈ event.scriptTime, ∀ token ∈ state.leases.members,
    (state.phase token).Holding → now < state.leases.score token))

instance (state : State ι) (event : Event ι) : Decidable (RenewalFits limit state event) := by
  cases event <;> unfold RenewalFits <;> infer_instance

instance (state : State ι) (event : Event ι) : Decidable (SafeStep limit state event) :=
  inferInstanceAs (Decidable (_ ∧ _))

/-- What the semaphore promises: neither its members nor the calls inside their
body are more than the limit. -/
structure Bounded (limit : ℤ) (state : State ι) : Prop where
  members : state.leases.card ≤ limit.toNat
  executing : {call | state.phase call = .inside}.encard ≤ limit.toNat

/-! ## What one step does -/

@[simp]
theorem setPhase_phase {other : ι} {phase : Phase} :
    (state.setPhase call phase).phase other =
      if other = call then phase else state.phase other := by
  simp [State.setPhase, Function.update_apply]

/-- The script purges, and then adds its token if there is room. -/
theorem acquireScript_cases (leases : SortedSet ι) (now lease limit : ℤ) (token : ι) :
    acquireScript leases now lease limit token = (false, leases.remRangeByScore now) ∨
      ((leases.remRangeByScore now).card : ℤ) < limit ∧
        acquireScript leases now lease limit token =
          (true, (leases.remRangeByScore now).add token lease) := by
  unfold acquireScript
  by_cases hroom : ((leases.remRangeByScore now).card : ℤ) < limit
  · exact Or.inr ⟨hroom, by rw [if_pos hroom]⟩
  · exact Or.inl (by rw [if_neg hroom])

/-- The three ways a step changes the sorted set: it only removes members, it
runs the script with success, or a renewal reaches it. -/
theorem members_of_step (hstep : step callers limit state event = some next) :
    next.leases.members ⊆ state.leases.members ∨
      (∃ call now, event.scriptTime = some now ∧ (state.phase call).Asking ∧
        ((state.leases.remRangeByScore now).card : ℤ) < limit ∧
        next.leases.members = insert call (state.leases.remRangeByScore now).members) ∨
      ∃ call score, event = .renewed call score ∧ (call, score) ∈ state.renewals ∧
        next.leases.members = insert call state.leases.members := by
  cases event with
  | tryAcquire call now =>
    simp only [step] at hstep
    split at hstep <;> cases hstep
    next hasking =>
      rcases acquireScript_cases state.leases now (now + leaseTtlSeconds) limit call with
        hrefused | ⟨hroom, hacquired⟩
      · refine Or.inl ?_
        simp only [hrefused]
        exact SortedSet.remRangeByScore_subset _ _
      · refine Or.inr (Or.inl ⟨call, now, rfl, hasking, hroom, ?_⟩)
        simp only [hacquired]
        rfl
  | cancelAcquire call now applied =>
    simp only [step] at hstep
    split at hstep <;> cases hstep
    next hasking =>
      cases applied with
      | false => exact Or.inl (Finset.Subset.refl _)
      | true =>
        rcases acquireScript_cases state.leases now (now + leaseTtlSeconds) limit call with
          hrefused | ⟨hroom, hacquired⟩
        · refine Or.inl ?_
          simp only [hrefused, if_true]
          exact SortedSet.remRangeByScore_subset _ _
        · refine Or.inr (Or.inl ⟨call, now, rfl, hasking, hroom, ?_⟩)
          simp only [hacquired, if_true]
          rfl
  | renewed call score =>
    simp only [step] at hstep
    split at hstep <;> cases hstep
    next hsent => exact Or.inr (Or.inr ⟨call, score, rfl, hsent, rfl⟩)
  | release call =>
    simp only [step] at hstep
    split at hstep <;> cases hstep
    exact Or.inl (Finset.erase_subset _ _)
  | cancelRelease call applied =>
    simp only [step] at hstep
    split at hstep <;> cases hstep
    cases applied with
    | false => exact Or.inl (Finset.Subset.refl _)
    | true => exact Or.inl (Finset.erase_subset _ _)
  | giveUp _ | enter _ | cancelEnter _ | renew _ _ | dropRenewal _ _ | leave _ =>
    simp only [step] at hstep
    split at hstep <;> cases hstep
    exact Or.inl (Finset.Subset.refl _)
  | crash _ =>
    cases hstep
    exact Or.inl (Finset.Subset.refl _)

theorem not_holding_onRefusal (caller : Caller) : ¬ caller.onRefusal.Holding := by
  cases caller <;> simp [Phase.Holding, Caller.onRefusal]

theorem not_asking_of_holding {phase : Phase} (hholding : phase.Holding) : ¬ phase.Asking := by
  rcases hholding with rfl | rfl <;> simp [Phase.Asking]

/-- A call has its slot because it had it before, or because the script has just
inserted its token. -/
theorem holding_of_step (hstep : step callers limit state event = some next)
    (hholding : (next.phase call).Holding) :
    (state.phase call).Holding ∨ call ∈ next.leases.members := by
  cases event with
  | tryAcquire other now =>
    simp only [step] at hstep
    split at hstep <;> cases hstep
    by_cases hcall : call = other
    · subst call
      rcases acquireScript_cases state.leases now (now + leaseTtlSeconds) limit other with
        hrefused | ⟨-, hacquired⟩
      · have hphase : ((callers other).onRefusal).Holding := by
          simpa [hrefused] using hholding
        exact absurd hphase (not_holding_onRefusal _)
      · refine Or.inr ?_
        simp only [hacquired]
        exact Finset.mem_insert_self _ _
    · refine Or.inl ?_
      simpa [hcall] using hholding
  | enter other =>
    simp only [step] at hstep
    split at hstep <;> cases hstep
    next hentering =>
      by_cases hcall : call = other
      · refine Or.inl (Or.inl ?_)
        rw [hcall, hentering]
      · exact Or.inl (by simpa [hcall] using hholding)
  | cancelAcquire other _ _ | giveUp other | cancelEnter other | leave other | release other
  | cancelRelease other _ =>
    simp only [step] at hstep
    split at hstep <;> cases hstep
    by_cases hcall : call = other
    · simp [hcall, Phase.Holding] at hholding
    · exact Or.inl (by simpa [hcall] using hholding)
  | crash other =>
    cases hstep
    by_cases hcall : call = other
    · simp [hcall, Phase.Holding] at hholding
    · exact Or.inl (by simpa [hcall] using hholding)
  | renew _ _ | renewed _ _ | dropRenewal _ _ =>
    simp only [step] at hstep
    split at hstep <;> cases hstep
    exact Or.inl hholding

/-- A call that keeps its slot keeps its token, unless an acquisition purges it. -/
theorem member_of_step (hlive : LeasesLive state event)
    (hstep : step callers limit state event = some next) (hmember : call ∈ state.leases.members)
    (hholding : (state.phase call).Holding) (hkept : (next.phase call).Holding) :
    call ∈ next.leases.members := by
  have hscript : ∀ now lease token, event.scriptTime = some now →
      call ∈ (acquireScript state.leases now lease limit token).2.members := by
    intro now lease token htime
    have hunpurged : call ∈ (state.leases.remRangeByScore now).members :=
      SortedSet.mem_remRangeByScore.mpr ⟨hmember, hlive now htime call hmember hholding⟩
    rcases acquireScript_cases state.leases now lease limit token with hrefused | ⟨-, hacquired⟩
    · rw [hrefused]
      exact hunpurged
    · rw [hacquired]
      exact Finset.mem_insert_of_mem hunpurged
  cases event with
  | tryAcquire other now =>
    simp only [step] at hstep
    split at hstep <;> cases hstep
    exact hscript now _ _ rfl
  | cancelAcquire other now applied =>
    simp only [step] at hstep
    split at hstep <;> cases hstep
    cases applied with
    | false => exact hmember
    | true => exact hscript now _ _ rfl
  | renewed other score =>
    simp only [step] at hstep
    split at hstep <;> cases hstep
    exact Finset.mem_insert_of_mem hmember
  | release other =>
    simp only [step] at hstep
    split at hstep <;> cases hstep
    refine Finset.mem_erase.mpr ⟨?_, hmember⟩
    rintro rfl
    simp [Phase.Holding] at hkept
  | cancelRelease other applied =>
    simp only [step] at hstep
    split at hstep <;> cases hstep
    cases applied with
    | false => exact hmember
    | true =>
      refine Finset.mem_erase.mpr ⟨?_, hmember⟩
      rintro rfl
      simp [Phase.Holding] at hkept
  | giveUp _ | enter _ | cancelEnter _ | renew _ _ | dropRenewal _ _ | leave _ =>
    simp only [step] at hstep
    split at hstep <;> cases hstep
    exact hmember
  | crash _ =>
    cases hstep
    exact hmember

/-- A call that still asks has asked all along: its token can only have been
inserted by a renewal, and this step sent none for it. -/
theorem asking_of_step (hstep : step callers limit state event = some next)
    (hasking : (next.phase call).Asking) :
    (state.phase call).Asking ∧
      (call ∈ next.leases.members →
        call ∈ state.leases.members ∨ ∃ score, (call, score) ∈ state.renewals) ∧
      ∀ score, (call, score) ∈ next.renewals → (call, score) ∈ state.renewals := by
  cases event with
  | tryAcquire other now =>
    simp only [step] at hstep
    split at hstep <;> cases hstep
    next hbefore =>
      rcases acquireScript_cases state.leases now (now + leaseTtlSeconds) limit other with
        hrefused | ⟨-, hacquired⟩
      · refine ⟨?_, ?_, fun _ h => h⟩
        · by_cases hcall : call = other
          · rw [hcall]
            exact hbefore
          · simpa [hcall] using hasking
        · intro hmember
          simp only [hrefused] at hmember
          exact Or.inl (SortedSet.remRangeByScore_subset _ _ hmember)
      · by_cases hcall : call = other
        · simp [hcall, hacquired, Phase.Asking] at hasking
        · refine ⟨by simpa [hcall] using hasking, ?_, fun _ h => h⟩
          intro hmember
          simp only [hacquired, SortedSet.members_add, Finset.mem_insert] at hmember
          rcases hmember with heq | hlive
          · exact absurd heq hcall
          · exact Or.inl (SortedSet.remRangeByScore_subset _ _ hlive)
  | cancelAcquire other now applied =>
    simp only [step] at hstep
    split at hstep <;> cases hstep
    by_cases hcall : call = other
    · simp [hcall, Phase.Asking] at hasking
    · refine ⟨by simpa [hcall] using hasking, ?_, fun _ h => h⟩
      intro hmember
      cases applied with
      | false => exact Or.inl hmember
      | true =>
        rcases acquireScript_cases state.leases now (now + leaseTtlSeconds) limit other with
          hrefused | ⟨-, hacquired⟩
        · simp only [hrefused, if_true] at hmember
          exact Or.inl (SortedSet.remRangeByScore_subset _ _ hmember)
        · simp only [hacquired, if_true, SortedSet.members_add, Finset.mem_insert] at hmember
          rcases hmember with heq | hlive
          · exact absurd heq hcall
          · exact Or.inl (SortedSet.remRangeByScore_subset _ _ hlive)
  | giveUp other | enter other | cancelEnter other | leave other =>
    simp only [step] at hstep
    split at hstep <;> cases hstep
    by_cases hcall : call = other
    · simp [hcall, Phase.Asking] at hasking
    · exact ⟨by simpa [hcall] using hasking, fun h => Or.inl h, fun _ h => h⟩
  | crash other =>
    cases hstep
    by_cases hcall : call = other
    · simp [hcall, Phase.Asking] at hasking
    · exact ⟨by simpa [hcall] using hasking, fun h => Or.inl h, fun _ h => h⟩
  | release other =>
    simp only [step] at hstep
    split at hstep <;> cases hstep
    by_cases hcall : call = other
    · simp [hcall, Phase.Asking] at hasking
    · exact ⟨by simpa [hcall] using hasking, fun h => Or.inl (Finset.mem_of_mem_erase h),
        fun _ h => h⟩
  | cancelRelease other applied =>
    simp only [step] at hstep
    split at hstep <;> cases hstep
    by_cases hcall : call = other
    · simp [hcall, Phase.Asking] at hasking
    · refine ⟨by simpa [hcall] using hasking, ?_, fun _ h => h⟩
      cases applied with
      | false => exact fun h => Or.inl h
      | true => exact fun h => Or.inl (Finset.mem_of_mem_erase h)
  | renew other now =>
    simp only [step] at hstep
    split at hstep <;> cases hstep
    next hinside =>
      refine ⟨hasking, fun h => Or.inl h, ?_⟩
      intro score hsent
      rcases List.mem_cons.mp hsent with heq | hbefore
      · obtain ⟨rfl, -⟩ := Prod.mk.inj heq
        exact absurd hasking (not_asking_of_holding (Or.inr hinside))
      · exact hbefore
  | renewed other score =>
    simp only [step] at hstep
    split at hstep <;> cases hstep
    next hsent =>
      refine ⟨hasking, ?_, fun _ h => List.mem_of_mem_erase h⟩
      intro hmember
      rcases Finset.mem_insert.mp hmember with rfl | hbefore
      · exact Or.inr ⟨score, hsent⟩
      · exact Or.inl hbefore
  | dropRenewal other score =>
    simp only [step] at hstep
    split at hstep <;> cases hstep
    exact ⟨hasking, fun h => Or.inl h, fun _ h => List.mem_of_mem_erase h⟩

/-! ## The bound -/

/-- Every call that has its slot has its token in the set, and a call that still
asks has never had one. -/
structure Tracked (state : State ι) : Prop where
  held : ∀ call, (state.phase call).Holding → call ∈ state.leases.members
  fresh : ∀ call, (state.phase call).Asking →
    call ∉ state.leases.members ∧ ∀ score, (call, score) ∉ state.renewals

theorem tracked_init (callers : ι → Caller) (limit : ℤ) :
    Tracked (machine callers limit).init where
  held call hholding := by
    rcases hholding with hphase | hphase <;> cases hphase
  fresh call _ := ⟨Finset.notMem_empty call, fun _ => List.not_mem_nil⟩

theorem tracked_step (htracked : Tracked state) (hpermitted : SafeStep limit state event)
    (hstep : step callers limit state event = some next) : Tracked next where
  held call hholding := by
    rcases holding_of_step hstep hholding with hbefore | hinserted
    · exact member_of_step hpermitted.1 hstep (htracked.held call hbefore) hbefore hholding
    · exact hinserted
  fresh call hasking := by
    obtain ⟨hbefore, hmember, hsent⟩ := asking_of_step hstep hasking
    obtain ⟨habsent, hunsent⟩ := htracked.fresh call hbefore
    refine ⟨?_, fun score h => hunsent score (hsent score h)⟩
    intro hinserted
    rcases hmember hinserted with hold | ⟨score, hrenewal⟩
    · exact habsent hold
    · exact hunsent score hrenewal

/-- The abstract holders are the members of the sorted set. -/
def Represents (state : State ι) (holders : Holders ι limit.toNat) : Prop :=
  Tracked state ∧ holders.members = state.leases.members

theorem represents_step {holders : Holders ι limit.toNat} (hrel : Represents state holders)
    (hpermitted : SafeStep limit state event)
    (hstep : step callers limit state event = some next) :
    ∃ moves holders', (Holders.machine ι limit.toNat).runFrom holders moves = some holders' ∧
      Represents next holders' := by
  obtain ⟨htracked, hmembers⟩ := hrel
  have htracked' := tracked_step htracked hpermitted hstep
  rcases members_of_step hstep with
    hremoved | ⟨call, now, hscript, hasking, hroom, hinserted⟩ | ⟨call, score, rfl, hsent, hadded⟩
  · rw [← hmembers] at hremoved
    obtain ⟨moves, holders', hmoves, hkept⟩ := Holders.runFrom_release hremoved
    exact ⟨moves, holders', hmoves, htracked', hkept⟩
  · have hkept : (state.leases.remRangeByScore now).members ⊆ holders.members := by
      rw [hmembers]
      exact SortedSet.remRangeByScore_subset _ _
    have hnew : call ∉ (state.leases.remRangeByScore now).members := by
      intro hlive
      exact (htracked.fresh call hasking).1 (SortedSet.remRangeByScore_subset _ _ hlive)
    have hcard : (state.leases.remRangeByScore now).members.card < limit.toNat :=
      Int.lt_toNat.mpr hroom
    obtain ⟨moves, holders', hmoves, hafter⟩ :=
      Holders.runFrom_release_acquire hkept hcard hnew
    exact ⟨moves, holders', hmoves, htracked', by rw [hafter, hinserted]⟩
  · by_cases hpresent : call ∈ state.leases.members
    · refine ⟨[], holders, rfl, htracked', ?_⟩
      rw [hmembers, hadded, Finset.insert_eq_of_mem hpresent]
    · -- A token that is gone is inserted again only where there is room.
      have hroom : (state.leases.card : ℤ) < limit := hpermitted.2.resolve_left hpresent
      have hcard : holders.members.card < limit.toNat := by
        rw [hmembers]
        exact Int.lt_toNat.mpr hroom
      rw [← hmembers] at hpresent
      obtain ⟨moves, holders', hmoves, hafter⟩ :=
        Holders.runFrom_release_acquire (Finset.Subset.refl _) hcard hpresent
      exact ⟨moves, holders', hmoves, htracked', by rw [hafter, hadded, hmembers]⟩

/-- Along safe runs a semaphore refines the abstract holders of its limit. -/
def refinesHolders (callers : ι → Caller) (limit : ℤ) :
    Machine.Simulation (machine callers limit) (SafeStep limit)
      (Holders.machine ι limit.toNat) where
  rel := Represents
  init := ⟨tracked_init callers limit, rfl⟩
  step := represents_step

/-- **The semaphore bound.** Along every run in which no acquisition purges the
token of a call that has its slot and no renewal inserts a token into a full
set, neither the members nor the executing bodies exceed the limit. -/
theorem bounded_of_live_leases
    (hpath : (machine callers limit).Path (SafeStep limit) events state) :
    Bounded limit state := by
  obtain ⟨holders, -, htracked, hmembers⟩ := (refinesHolders callers limit).path hpath
  refine ⟨?_, ?_⟩
  · show state.leases.members.card ≤ limit.toNat
    rw [← hmembers]
    exact holders.bounded
  · apply holders.encard_le_of_subset
    intro call hinside
    rw [hmembers]
    exact htracked.held call (Or.inr hinside)

/-- Two calls on a semaphore of limit one, the second after the first: a safe
run, in which the lease of a crashed call is purged. -/
theorem bounded_of_crashed_holder :
    ∃ state, Bounded 1 state ∧ state.phase 1 = .inside ∧
      state.phase (0 : ℕ) = .finished := by
  obtain ⟨state, hrun, hsecond, hfirst⟩ : ∃ state,
      (machine (fun _ : ℕ => Caller.globalRunSemaphoreBlocking) 1).runUnder (SafeStep 1)
        (machine (fun _ : ℕ => Caller.globalRunSemaphoreBlocking) 1).init
        [.tryAcquire 0 0, .enter 0, .renew 0 40, .renewed 0 160, .crash 0,
          .tryAcquire 1 100, .tryAcquire 1 200, .enter 1] = some state ∧
      state.phase 1 = .inside ∧ state.phase 0 = .finished := ⟨_, rfl, rfl, rfl⟩
  exact ⟨state, bounded_of_live_leases (Machine.path_of_runUnder hrun), hsecond, hfirst⟩

/-- A holder's renewal is late: its lease is purged, the slot is given away, and
the renewal then inserts a second member beside it. -/
theorem not_bounded_of_late_renewal :
    ¬ ∀ (callers : ℕ → Caller) (limit : ℤ) (events : List (Event ℕ)) (state : State ℕ),
      (machine callers limit).Path Machine.anyStep events state → Bounded limit state := by
  intro hclaim
  obtain ⟨state, hrun, hcard⟩ : ∃ state,
      (machine (fun _ : ℕ => Caller.globalRunSemaphore) 1).runFrom
        (machine (fun _ : ℕ => Caller.globalRunSemaphore) 1).init
        [.tryAcquire 0 0, .enter 0, .tryAcquire 1 121, .enter 1, .renew 0 122, .renewed 0 242] =
          some state ∧
      state.leases.card = 2 := ⟨_, rfl, rfl⟩
  have hbounded := hclaim _ _ _ _ (Machine.path_of_runFrom hrun)
  have hone : state.leases.card ≤ 1 := hbounded.members
  omega

end DbtCraft.Core.GlobalSemaphore

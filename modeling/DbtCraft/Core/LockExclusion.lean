/-
# Mutual exclusion of the run lock

The token-checked release keeps the lock exclusive on its own. The
unconditional deletes do not: they can remove the key of a call that is still
inside its body, and the next waiting call then enters beside it. Exclusion
holds along every run in which no unconditional delete hits the key of a call
that is inside: under this condition the machine of `FileLock` refines the
abstract lock of `Holders`.
-/

import DbtCraft.Core.FileLock

namespace DbtCraft.Core.FileLock

open DbtCraft.Math DbtCraft.Redis

universe uι

variable {ι : Type uι} [DecidableEq ι] {callers : ι → Caller} {settings : Settings}
  {state next : State ι} {event : Event ι} {events : List (Event ι)} {call : ι}
  {resource : Resource}

/-- A call is inside a locked body of `resource`. -/
def State.Inside (callers : ι → Caller) (state : State ι) (resource : Resource)
    (call : ι) : Prop :=
  state.phase call = .inside ∧ (callers call).resource = resource

/-- A call is inside its body and the key carries its token. -/
def State.Holds (callers : ι → Caller) (state : State ι) (call : ι) : Prop :=
  state.phase call = .inside ∧ state.keys.get (callers call).resource = some call

/-- The call on whose behalf an event happens. `cancel_process` and a starting
worker act for no particular run. -/
def Event.actor : Event ι → Option ι
  | .enter call | .attempt call | .renew call | .leave call _ | .release call
  | .cancelWaiting call _ | .cancelRelease call _ | .forceRelease call
  | .cancelHandler call | .cancelRun call | .cancelEntering call | .unwind call
  | .cancelUnwinding call => some call
  | .cancelProcess _ | .scanStale _ _ | .deleteStale _ _ | .tick => none

/-- The resource whose key an event deletes without looking at its token. -/
def Event.forcedDelete (callers : ι → Caller) : Event ι → Option Resource
  | .forceRelease call => some (callers call).resource
  | .cancelRun _ => some .dbtRun
  | .cancelProcess resource => some resource
  | .deleteStale _ resource => some resource
  | _ => none

/-- Renewals arrive before the TTL: no second is the last one of a key whose
owner is inside its body. -/
def TimelyRenewals (state : State ι) (event : Event ι) : Prop :=
  event = .tick → ∀ resource, ∀ entry ∈ state.keys resource,
    entry.ttl ≤ 1 → state.phase entry.value ≠ .inside

/-- No unconditional delete hits the key of a call that is inside its body. -/
def NoForcedDelete (callers : ι → Caller) (state : State ι) (event : Event ι) : Prop :=
  ∀ resource ∈ event.forcedDelete callers, ∀ owner ∈ state.keys.get resource,
    state.phase owner ≠ .inside

/-- The steps of the runs in which the lock does what it is for. -/
def SafeStep (callers : ι → Caller) (state : State ι) (event : Event ι) : Prop :=
  TimelyRenewals state event ∧ NoForcedDelete callers state event

instance (state : State ι) (event : Event ι) : Decidable (TimelyRenewals state event) :=
  inferInstanceAs (Decidable (event = .tick → ∀ resource, ∀ entry ∈ state.keys resource,
    entry.ttl ≤ 1 → state.phase entry.value ≠ .inside))

instance (callers : ι → Caller) (state : State ι) (event : Event ι) :
    Decidable (NoForcedDelete callers state event) :=
  inferInstanceAs (Decidable (∀ resource ∈ event.forcedDelete callers,
    ∀ owner ∈ state.keys.get resource, state.phase owner ≠ .inside))

instance (callers : ι → Caller) (state : State ι) (event : Event ι) :
    Decidable (SafeStep callers state event) :=
  inferInstanceAs (Decidable (_ ∧ _))

/-- What the lock promises in a state of the runs that take `allowed` steps: one
call at a time inside the body of each resource, and no next step taken for
another call, or for none, frees a lock that a call holds. -/
structure LockSafe (callers : ι → Caller) (settings : Settings)
    (allowed : State ι → Event ι → Prop) (state : State ι) : Prop where
  exclusive : ∀ resource, {call | state.Inside callers resource call}.Subsingleton
  undisturbed : ∀ event next, allowed state event →
    step callers settings state event = some next → ∀ call, state.Holds callers call →
    event.actor ≠ some call → next.Holds callers call

/-! ## What one step does -/

@[simp]
theorem setPhase_phase {other : ι} {phase : Phase} :
    (state.setPhase call phase).phase other =
      if other = call then phase else state.phase other := by
  simp [State.setPhase, Function.update_apply]

@[simp]
theorem await_ne_inside (timeout waitTime : ℕ) : Phase.await timeout waitTime ≠ .inside := by
  unfold Phase.await
  split <;> simp

@[simp]
theorem afterUnwinding_ne_inside (caller : Caller) (ending : Ending) :
    Phase.afterUnwinding caller ending ≠ .inside := by
  cases ending with
  | returned => simp [Phase.afterUnwinding]
  | raised => simp [Phase.afterUnwinding]
  | cancelled =>
    simp only [Phase.afterUnwinding]
    split <;> simp

theorem inside_of_setPhase {other : ι} {phase : Phase} (hphase : phase ≠ .inside)
    (hinside : (state.setPhase other phase).phase call = .inside) :
    state.phase call = .inside := by
  by_cases hcall : call = other
  · simp [hcall, hphase] at hinside
  · simpa [hcall] using hinside

/-- A call gets inside by a successful `SET NX EX` and in no other way. -/
theorem inside_of_step (hstep : step callers settings state event = some next)
    (hinside : next.phase call = .inside) :
    state.phase call = .inside ∨
      event = .attempt call ∧ state.keys.get (callers call).resource = none ∧
        next.keys.get (callers call).resource = some call := by
  cases event with
  | attempt other =>
    simp only [step] at hstep
    split at hstep
    · split at hstep
      next keys hkeys =>
        cases hstep
        obtain ⟨hfree, rfl⟩ := Store.setNxEx_eq_some.mp hkeys
        by_cases hcall : call = other
        · subst call
          exact Or.inr ⟨rfl, hfree, by simp⟩
        · exact Or.inl (by simpa [hcall] using hinside)
      · cases hstep
        exact Or.inl (inside_of_setPhase (by simp) hinside)
    · cases hstep
  | enter other | leave other _ | release other | cancelWaiting other _
  | cancelRelease other _ | forceRelease other | cancelHandler other
  | cancelEntering other | unwind other | cancelUnwinding other =>
    simp only [step] at hstep
    split at hstep <;> cases hstep
    exact Or.inl (inside_of_setPhase (by simp) hinside)
  | renew _ | cancelProcess _ | scanStale _ _ | deleteStale _ _ =>
    simp only [step] at hstep
    split at hstep <;> cases hstep
    exact Or.inl hinside
  | cancelRun _ | tick =>
    cases hstep
    exact Or.inl hinside

/-- A call stays inside until it leaves its body itself. -/
theorem inside_of_step_of_not_leave (hstep : step callers settings state event = some next)
    (hinside : state.phase call = .inside) (hleave : ∀ ending, event ≠ .leave call ending) :
    next.phase call = .inside := by
  have hother {other : ι} (hphase : state.phase other ≠ .inside) : call ≠ other := by
    rintro rfl
    exact hphase hinside
  cases event with
  | attempt other =>
    simp only [step] at hstep
    split at hstep
    next hphase =>
      have hcall : call ≠ other := hother (by simp [hphase])
      split at hstep <;> cases hstep <;> simpa [hcall] using hinside
    · cases hstep
  | leave other ending =>
    have hcall : call ≠ other := by
      rintro rfl
      exact hleave ending rfl
    simp only [step] at hstep
    split at hstep <;> cases hstep
    simpa [hcall] using hinside
  | enter other | release other | cancelWaiting other _ | cancelRelease other _
  | forceRelease other | cancelHandler other | cancelEntering other | unwind other
  | cancelUnwinding other =>
    simp only [step] at hstep
    split at hstep <;> cases hstep
    next hphase =>
      have hcall : call ≠ other := hother (by simp [hphase])
      simpa [hcall] using hinside
  | renew _ | cancelProcess _ | scanStale _ _ | deleteStale _ _ =>
    simp only [step] at hstep
    split at hstep <;> cases hstep
    exact hinside
  | cancelRun _ | tick =>
    cases hstep
    exact hinside

theorem inside_of_step_of_ne (hstep : step callers settings state event = some next)
    (hinside : state.phase call = .inside) (hactor : event.actor ≠ some call) :
    next.phase call = .inside := by
  refine inside_of_step_of_not_leave hstep hinside fun ending hleave => ?_
  rw [hleave] at hactor
  exact hactor rfl

/-- A held key survives every step but its owner's clean-up, the last second of
its TTL and an unconditional delete. -/
theorem get_of_step {owner : ι} (hstep : step callers settings state event = some next)
    (howner : state.keys.get resource = some owner) :
    next.keys.get resource = some owner ∨
      (event.actor = some owner ∧ state.phase owner ≠ .inside) ∨
      (event = .tick ∧ ∃ entry ∈ state.keys resource, entry.value = owner ∧ entry.ttl ≤ 1) ∨
      event.forcedDelete callers = some resource := by
  cases event with
  | enter _ | leave _ _ | cancelHandler _ | cancelEntering _ | unwind _
  | cancelUnwinding _ | scanStale _ _ =>
    simp only [step] at hstep
    split at hstep <;> cases hstep
    exact Or.inl howner
  | attempt other =>
    simp only [step] at hstep
    split at hstep
    · split at hstep
      next keys hkeys =>
        cases hstep
        have hkept : ((state.keys.setNxEx (callers other).resource other
            settings.fileLockTtl).getD state.keys).get resource = some owner :=
          Store.get_setNxEx_of_some howner
        rw [hkeys] at hkept
        exact Or.inl hkept
      · cases hstep
        exact Or.inl howner
    · cases hstep
  | renew other =>
    simp only [step] at hstep
    split at hstep <;> cases hstep
    exact Or.inl (by simpa using howner)
  | release other =>
    simp only [step] at hstep
    split at hstep <;> cases hstep
    next hphase =>
      by_cases hself : owner = other
      · subst owner
        exact Or.inr (Or.inl ⟨rfl, by simp [hphase]⟩)
      · exact Or.inl (Store.get_delIf_of_ne howner hself)
  | cancelRelease other applied =>
    simp only [step] at hstep
    split at hstep <;> cases hstep
    next hphase =>
      by_cases hself : owner = other
      · subst owner
        exact Or.inr (Or.inl ⟨rfl, by simp [hphase]⟩)
      · cases applied
        · exact Or.inl howner
        · exact Or.inl (Store.get_delIf_of_ne howner hself)
  | cancelWaiting other applied =>
    simp only [step] at hstep
    split at hstep <;> cases hstep
    cases applied
    · exact Or.inl howner
    · exact Or.inl (Store.get_setNxEx_of_some howner)
  | forceRelease other =>
    simp only [step] at hstep
    split at hstep <;> cases hstep
    by_cases hdeleted : resource = (callers other).resource
    · exact Or.inr (Or.inr (Or.inr (by simp [Event.forcedDelete, hdeleted])))
    · exact Or.inl (by simpa [hdeleted] using howner)
  | cancelRun _ =>
    cases hstep
    by_cases hdeleted : resource = .dbtRun
    · exact Or.inr (Or.inr (Or.inr (by simp [Event.forcedDelete, hdeleted])))
    · exact Or.inl (by simpa [hdeleted] using howner)
  | cancelProcess deleted | deleteStale _ deleted =>
    simp only [step] at hstep
    split at hstep <;> cases hstep
    by_cases hdeleted : resource = deleted
    · exact Or.inr (Or.inr (Or.inr (by simp [Event.forcedDelete, hdeleted])))
    · exact Or.inl (by simpa [hdeleted] using howner)
  | tick =>
    cases hstep
    obtain ⟨entry, hentry, hvalue⟩ := Option.map_eq_some_iff.mp howner
    by_cases hlast : entry.ttl ≤ 1
    · exact Or.inr (Or.inr (Or.inl ⟨rfl, entry, hentry, hvalue, hlast⟩))
    · exact Or.inl ((Store.get_elapse_of_lt hentry (by omega)).trans howner)

/-! ## The held key follows the body -/

/-- **The step lemma.** No permitted step takes the key of a call that is inside
its body. -/
theorem get_of_step_of_holds (hheld : state.Holds callers call)
    (hpermitted : SafeStep callers state event)
    (hstep : step callers settings state event = some next) :
    next.keys.get (callers call).resource = some call := by
  obtain ⟨hinside, howner⟩ := hheld
  rcases get_of_step hstep howner with hkept | ⟨-, hout⟩ | ⟨htick, hlast⟩ | hforced
  · exact hkept
  · exact absurd hinside hout
  · obtain ⟨entry, hentry, rfl, hlast⟩ := hlast
    exact absurd hinside (hpermitted.1 htick _ entry hentry hlast)
  · exact absurd hinside (hpermitted.2 _ hforced _ howner)

/-- Every call inside its body owns the key of its resource. -/
def Guarded (callers : ι → Caller) (state : State ι) : Prop :=
  ∀ call, state.phase call = .inside → state.Holds callers call

theorem guarded_init : Guarded callers (machine callers settings).init := by
  intro call hinside
  cases hinside

theorem guarded_step (hguarded : Guarded callers state)
    (hpermitted : SafeStep callers state event)
    (hstep : step callers settings state event = some next) : Guarded callers next := by
  intro call hinside
  rcases inside_of_step hstep hinside with hbefore | ⟨-, -, howner⟩
  · exact ⟨hinside, get_of_step_of_holds (hguarded call hbefore) hpermitted hstep⟩
  · exact ⟨hinside, howner⟩

/-! ## The machine refines an abstract lock -/

/-- The calls inside the body of one resource are the holders of an abstract
lock of capacity one. -/
def Describes (callers : ι → Caller) (resource : Resource) (state : State ι)
    (lock : Holders ι 1) : Prop :=
  Guarded callers state ∧
    ∀ call, call ∈ {call | state.Inside callers resource call} ↔ call ∈ lock.members

omit [DecidableEq ι] in
theorem not_inside_of_get_none (hguarded : Guarded callers state)
    (hfree : state.keys.get resource = none) : ¬ state.Inside callers resource call := by
  rintro ⟨hinside, rfl⟩
  rw [(hguarded call hinside).2] at hfree
  cases hfree

/-- A permitted step acquires or releases the abstract lock for its actor, or
leaves it as it is. -/
theorem describes_step {lock : Holders ι 1} (hrel : Describes callers resource state lock)
    (hpermitted : SafeStep callers state event)
    (hstep : step callers settings state event = some next) :
    ∃ moves lock', (Holders.machine ι 1).runFrom lock moves = some lock' ∧
      Describes callers resource next lock' := by
  obtain ⟨hguarded, hmembers⟩ := hrel
  have hguarded' := guarded_step hguarded hpermitted hstep
  by_cases hentered : ∃ call, next.Inside callers resource call ∧
      ¬ state.Inside callers resource call
  · -- Only a successful attempt lets a call in, and then the key was free.
    obtain ⟨entered, ⟨hinside, rfl⟩, hnew⟩ := hentered
    rcases inside_of_step hstep hinside with hbefore | ⟨rfl, hfree, howner⟩
    · exact absurd ⟨hbefore, rfl⟩ hnew
    · have hempty : lock.members = ∅ := by
        refine Finset.eq_empty_of_forall_notMem fun call hcall => ?_
        exact not_inside_of_get_none hguarded hfree ((hmembers call).mpr hcall)
      have hroom : lock.members.card < 1 := by simp [hempty]
      have hnotHeld : entered ∉ lock.members := by simp [hempty]
      obtain ⟨lock', hrun, hlock'⟩ := Holders.step_acquire hroom hnotHeld
      refine ⟨[.acquire entered], lock', by simp [Machine.runFrom, Holders.machine, hrun],
        hguarded', fun call => ?_⟩
      rw [hlock', hempty]
      simp only [Finset.mem_insert, Finset.notMem_empty, or_false]
      refine ⟨fun hcall => ?_, ?_⟩
      · have hheld := (hguarded' call hcall.1).2
        rw [hcall.2, howner] at hheld
        exact (Option.some.inj hheld).symm
      · rintro rfl
        exact ⟨hinside, rfl⟩
  · by_cases hleft : ∃ call, state.Inside callers resource call ∧
        ¬ next.Inside callers resource call
    · obtain ⟨left, ⟨hinside, rfl⟩, hgone⟩ := hleft
      obtain ⟨lock', hrun, hlock'⟩ := Holders.step_release lock left
      refine ⟨[.release left], lock', by simp [Machine.runFrom, Holders.machine, hrun],
        hguarded', fun call => ?_⟩
      rw [hlock', Finset.mem_erase, ← hmembers]
      refine ⟨fun hcall => ⟨?_, ?_⟩, ?_⟩
      · rintro rfl
        exact hgone hcall
      · by_contra hnew
        exact hentered ⟨call, hcall, hnew⟩
      · rintro ⟨hne, hcall⟩
        have hsame := (hguarded call hcall.1).2
        rw [hcall.2, (hguarded left hinside).2] at hsame
        exact absurd (Option.some.inj hsame).symm hne
    · refine ⟨[], lock, rfl, hguarded', fun call => ?_⟩
      rw [← hmembers]
      push Not at hentered hleft
      exact ⟨hentered call, hleft call⟩

/-- Along safe runs the lock of each resource refines the abstract lock. -/
def refinesHolders (callers : ι → Caller) (settings : Settings) (resource : Resource) :
    Machine.Simulation (machine callers settings) (SafeStep callers)
      (Holders.machine ι 1) where
  rel := Describes callers resource
  init := ⟨guarded_init, fun call => by simp [State.Inside, machine, Holders.machine]⟩
  step := describes_step

/-! ## Exclusion -/

/-- **The run lock excludes.** Along every run in which renewals are timely and
no unconditional delete hits the key of a call inside its body, at most one call
is inside the body of a resource, and no step of another call frees a held
lock. -/
theorem lock_safe_of_no_forced_delete
    (hpath : (machine callers settings).Path (SafeStep callers) events state) :
    LockSafe callers settings (SafeStep callers) state where
  exclusive resource := by
    obtain ⟨lock, -, -, hmembers⟩ := (refinesHolders callers settings resource).path hpath
    exact lock.subsingleton_of_iff hmembers
  undisturbed event next hpermitted hstep call hheld hactor :=
    ⟨inside_of_step_of_ne hstep hheld.1 hactor,
      get_of_step_of_holds hheld hpermitted hstep⟩

/-- Two runs one after the other, the second waiting while the first is inside:
a safe run. -/
theorem lock_safe_of_two_runs :
    ∃ state, LockSafe (fun _ : ℕ => Caller.runCommand) {} (SafeStep fun _ => .runCommand)
        state ∧ state.phase 0 = .finished ∧ state.phase 1 = .inside := by
  obtain ⟨state, hrun, hfirst, hsecond⟩ : ∃ state,
      (machine (fun _ : ℕ => Caller.runCommand) {}).runUnder (SafeStep fun _ => .runCommand)
        (machine (fun _ : ℕ => Caller.runCommand) {}).init
        [.enter 0, .attempt 0, .enter 1, .attempt 1, .tick, .renew 0, .leave 0 .returned,
          .release 0, .unwind 0, .attempt 1] = some state ∧
      state.phase 0 = .finished ∧ state.phase 1 = .inside := ⟨_, rfl, rfl, rfl⟩
  exact ⟨state, lock_safe_of_no_forced_delete (Machine.path_of_runUnder hrun), hfirst, hsecond⟩

/-- Cancelling a run that waits for the lock deletes the key of the run that is
inside, and the cancelled run's neighbour enters beside it. -/
theorem not_lock_safe_of_cancel_run :
    ¬ ∀ (callers : ℕ → Caller) (settings : Settings) (events : List (Event ℕ))
        (state : State ℕ),
      (machine callers settings).Path TimelyRenewals events state →
        LockSafe callers settings TimelyRenewals state := by
  intro hclaim
  obtain ⟨state, hrun, hfirst, hsecond⟩ : ∃ state,
      (machine (fun _ : ℕ => Caller.runCommand) {}).runUnder TimelyRenewals
        (machine (fun _ : ℕ => Caller.runCommand) {}).init
        [.enter 0, .attempt 0, .enter 1, .attempt 1, .cancelRun 0, .attempt 1] = some state ∧
      state.phase 0 = .inside ∧ state.phase 1 = .inside := ⟨_, rfl, rfl, rfl⟩
  have hsafe := hclaim _ _ _ _ (Machine.path_of_runUnder hrun)
  have heq : (0 : ℕ) = 1 := hsafe.exclusive .dbtRun ⟨hfirst, rfl⟩ ⟨hsecond, rfl⟩
  cases heq

end DbtCraft.Core.FileLock

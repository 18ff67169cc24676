/-
# What the session registry guarantees

An acquire that has the lock leaves every live harness with a session that is registered, or
starts one more where there is a slot. The registry is never larger than the number of slots,
so that the harnesses are not either. What can go wrong is that a start fails with its
harness alive, that a shutdown waits while harnesses live that it has unregistered, and that
an acquire closes a session that somebody uses.
-/

import DbtCraft.Agent.SessionRegistry
import DbtCraft.Python.Environ
import Mathlib.Data.List.Perm.Subperm
import Mathlib.Data.List.TakeWhile

namespace DbtCraft.Python.Dict

universe uα uκ uν

variable {κ : Type uκ} {ν : Type uν} [DecidableEq κ] {dict : Dict κ ν} {key : κ} {value : ν}

theorem not_mem_of_get (hget : dict.get key = none) (value : ν) : (key, value) ∉ dict := by
  induction dict with
  | nil => exact List.not_mem_nil
  | cons item rest ih =>
    rw [get] at hget
    split at hget
    · cases hget
    next hfirst =>
      intro hmem
      rcases List.mem_cons.mp hmem with hsame | hrest
      · exact hfirst (hsame ▸ rfl)
      · exact ih hget hrest

theorem mem_pop_iff {item : κ × ν} : item ∈ dict.pop key ↔ item ∈ dict ∧ item.1 ≠ key := by
  rw [pop, List.mem_filter, decide_eq_true_eq]

end DbtCraft.Python.Dict

namespace DbtCraft.Agent.SessionRegistry

open DbtCraft.Python DbtCraft.Math

universe uκ uφ

variable {κ : Type uκ} {φ : Type uφ} {settings : Settings}
  {state target : State κ φ} {id other : ℕ} {key : κ} {fingerprint : φ}

/-! ## Sessions that are closed -/

@[simp]
theorem live_kill : (state.kill id).live other ↔ other ≠ id ∧ state.live other := by
  unfold State.kill State.modify State.live
  by_cases hsame : other = id
  · simp [hsame, Session.alive]
  · simp [hsame]

@[simp]
theorem live_closeBy : (state.closeBy id).live other ↔ other ≠ id ∧ state.live other :=
  live_kill

theorem victims_closeBy :
    (state.closeBy id).victims = [] ↔ state.victims = [] ∧ (state.sessions id).free := by
  unfold State.closeBy
  dsimp only
  split
  next hfree => exact ⟨fun hnone => ⟨hnone, hfree⟩, fun hboth => hboth.1⟩
  next hused => exact ⟨fun hnone => (List.cons_ne_nil _ _ hnone).elim, fun hboth => (hused hboth.2).elim⟩

/-- What the sweep comes to are items that it had to look at. -/
theorem mem_of_toSweep {now : ℕ} {items rest : List (κ × ℕ)} {item : κ × ℕ}
    (hsweep : state.toSweep settings now items = item :: rest) :
    item ∈ items ∧ ∀ later ∈ rest, later ∈ items := by
  have hsuffix : item :: rest <:+ items := hsweep ▸ List.dropWhile_suffix _
  exact ⟨hsuffix.subset List.mem_cons_self,
    fun later hlater => hsuffix.subset (List.mem_cons_of_mem _ hlater)⟩

theorem mem_of_leastRecent {item : κ × ℕ} (hleast : state.leastRecent = some item) :
    item ∈ state.registry :=
  (List.mem_filter.mp (List.argmin_mem hleast)).1

/-! ## The registry under the lock -/

/-- A key has one session. -/
def Agrees (registry : Dict κ ℕ) (items : List (κ × ℕ)) : Prop :=
  ∀ item ∈ items, ∀ id, (item.1, id) ∈ registry → id = item.2

theorem Agrees.pop [DecidableEq κ] {registry : Dict κ ℕ} {items : List (κ × ℕ)} (hagrees : Agrees registry items) :
    Agrees (registry.pop key) items :=
  fun item hitem id hmem => hagrees item hitem id (Dict.mem_of_mem_pop hmem)

/-- The registry is in order, and every live harness is registered. -/
structure Settled (settings : Settings) (state : State κ φ) : Prop where
  agrees : Agrees state.registry state.registry
  bounded : state.registry.length ≤ settings.maxSessions
  fresh : ∀ item ∈ state.registry, item.2 < state.next
  registered : ∀ id, state.live id → ∃ key, (key, id) ∈ state.registry

/-- What holds where an acquire waits. -/
def State.Sound (settings : Settings) (state : State κ φ) (acquire : Acquire κ φ) : Prop :=
  match acquire.phase with
  | .restarting => ∀ id, (acquire.key, id) ∈ state.registry → ¬ state.live id
  | .sweeping _ closing rest => (∀ id, (acquire.key, id) ∉ state.registry) ∧
      (∀ id, (closing, id) ∈ state.registry → ¬ state.live id) ∧ Agrees state.registry rest
  | .evicting closing => (∀ id, (acquire.key, id) ∉ state.registry) ∧
      ∀ id, (closing, id) ∈ state.registry → ¬ state.live id
  | .starting id => (∀ other, (acquire.key, other) ∉ state.registry) ∧
      state.registry.length < settings.maxSessions ∧ id < state.next ∧
      ∀ item ∈ state.registry, item.2 ≠ id

/-- The registry is in order, also for the acquire that has the lock. -/
structure Wired (settings : Settings) (state : State κ φ) : Prop where
  agrees : Agrees state.registry state.registry
  bounded : state.registry.length ≤ settings.maxSessions
  fresh : ∀ item ∈ state.registry, item.2 < state.next
  held : ∀ acquire, state.holder = some acquire → state.Sound settings acquire

/-- The state is in order and every live harness belongs to a session. -/
structure Kept (settings : Settings) (state : State κ φ) : Prop where
  wired : Wired settings state
  owned : ∀ id, state.live id → state.Owned id

theorem starting_eq_some {acquire : Acquire κ φ} (hstarting : state.starting = some (acquire, id)) :
    state.holder = some acquire ∧ acquire.phase = .starting id := by
  unfold State.starting at hstarting
  split at hstarting
  next own hholder =>
    split at hstarting
    next own' hphase =>
      cases hstarting
      exact ⟨hholder, hphase⟩
    · cases hstarting
  · cases hstarting

/-- There are not more harnesses than slots. -/
theorem Kept.capped (hkept : Kept settings state) {ids : List ℕ} (hnodup : ids.Nodup)
    (hlive : ∀ id ∈ ids, state.live id) : ids.length ≤ settings.maxSessions := by
  cases hstarting : state.starting with
  | none =>
    have hsubset : ids ⊆ state.registry.map Prod.snd := by
      intro id hid
      rcases hkept.owned id (hlive id hid) with ⟨key, hmem⟩ | ⟨acquire, hown⟩
      · exact List.mem_map.mpr ⟨_, hmem, rfl⟩
      · rw [hstarting] at hown
        cases hown
    have hlength := (List.subperm_of_subset hnodup hsubset).length_le
    rw [List.length_map] at hlength
    exact hlength.trans hkept.wired.bounded
  | some pair =>
    obtain ⟨acquire, started⟩ := pair
    obtain ⟨hholder, hphase⟩ := starting_eq_some hstarting
    have hsound := hkept.wired.held acquire hholder
    simp only [State.Sound, hphase] at hsound
    have hsubset : ids ⊆ started :: state.registry.map Prod.snd := by
      intro id hid
      rcases hkept.owned id (hlive id hid) with ⟨key, hmem⟩ | ⟨other, hown⟩
      · exact List.mem_cons_of_mem _ (List.mem_map.mpr ⟨_, hmem, rfl⟩)
      · rw [hstarting] at hown
        cases hown
        exact List.mem_cons_self
    have hlength := (List.subperm_of_subset hnodup hsubset).length_le
    rw [List.length_cons, List.length_map] at hlength
    exact hlength.trans hsound.2.1

/-- In a state that is in order the guarantee is about the victims only. -/
theorem Kept.right_iff (hkept : Kept settings state) :
    Right settings state ↔ state.victims = [] :=
  ⟨fun hright => hright.spared,
    fun hspared => ⟨hkept.owned, fun _ hnodup hlive => hkept.capped hnodup hlive, hspared⟩⟩

theorem Wired.settled (hwired : Wired settings state) (hholder : state.starting = none)
    (howned : ∀ id, state.live id → state.Owned id) : Settled settings state where
  agrees := hwired.agrees
  bounded := hwired.bounded
  fresh := hwired.fresh
  registered id hlive := by
    rcases howned id hlive with hmem | ⟨acquire, hown⟩
    · exact hmem
    · rw [hholder] at hown
      cases hown

/-- A session that is not live can be unregistered. -/
theorem Settled.unregister [DecidableEq κ] (hsettled : Settled settings state)
    (hdead : ∀ id, (key, id) ∈ state.registry → ¬ state.live id) :
    Settled settings (state.unregister key) where
  agrees item hitem id hmem :=
    hsettled.agrees item (Dict.mem_of_mem_pop hitem) id (Dict.mem_of_mem_pop hmem)
  bounded := (List.length_filter_le _ _).trans hsettled.bounded
  fresh item hitem := hsettled.fresh item (Dict.mem_of_mem_pop hitem)
  registered id hlive := by
    obtain ⟨own, hmem⟩ := hsettled.registered id hlive
    refine ⟨own, Dict.mem_pop_iff.mpr ⟨hmem, ?_⟩⟩
    rintro rfl
    exact hdead id hmem hlive

/-- An acquire waits for the close of a session that it has killed. -/
theorem Settled.closeBy (hsettled : Settled settings state) {acquire : Acquire κ φ}
    (hsound : ({ state.closeBy id with holder := some acquire } : State κ φ).Sound settings acquire) :
    Kept settings ({ state.closeBy id with holder := some acquire } : State κ φ) where
  wired :=
    { agrees := hsettled.agrees
      bounded := hsettled.bounded
      fresh := hsettled.fresh
      held := fun _ hown => Option.some.inj hown ▸ hsound }
  owned other hlive := .inl (hsettled.registered other (live_closeBy.mp hlive).2)

/-! ## Reclaiming -/

/-- The second loop of `_reclaim` keeps the registry in order. -/
theorem Settled.evict (hsettled : Settled settings state)
    (hkey : ∀ id, (key, id) ∉ state.registry) :
    Kept settings (state.evict settings key fingerprint) := by
  unfold State.evict
  split
  next hroom =>
    have hlive : ∀ id, (Session.alive (Function.update state.sessions state.next
        ⟨fingerprint, state.clock, false, .absent, 0⟩ id) = true) → state.live id := by
      intro id hid
      by_cases hsame : id = state.next
      · rw [hsame, Function.update_self] at hid
        cases hid
      · rwa [Function.update_of_ne hsame] at hid
    exact
      { wired :=
          { agrees := hsettled.agrees
            bounded := hsettled.bounded
            fresh := fun item hitem => (hsettled.fresh item hitem).trans (Nat.lt_succ_self _)
            held := fun acquire hacquire => by
              cases hacquire
              exact ⟨hkey, hroom, Nat.lt_succ_self _,
                fun item hitem => Nat.ne_of_lt (hsettled.fresh item hitem)⟩ }
        owned := fun id hid => .inl (hsettled.registered id (hlive id hid)) }
  · split
    · exact
        { wired :=
            { agrees := hsettled.agrees
              bounded := hsettled.bounded
              fresh := hsettled.fresh
              held := fun _ hnone => by cases hnone }
          owned := fun id hid => .inl (hsettled.registered id hid) }
    next item hleast =>
      apply hsettled.closeBy
      refine ⟨hkey, fun id hmem hid => ?_⟩
      exact (live_closeBy.mp hid).1 (hsettled.agrees item (mem_of_leastRecent hleast) id hmem)

/-- The second loop of `_reclaim` makes a victim of a session that is not free. -/
theorem victims_evict : (state.evict settings key fingerprint).victims = [] ↔
    state.victims = [] ∧ state.EvictsFree settings := by
  unfold State.evict State.EvictsFree
  split
  next hroom =>
    exact ⟨fun hnone => ⟨hnone, fun hfull => absurd hroom (Nat.not_lt.mpr hfull)⟩,
      fun hboth => hboth.1⟩
  next hfull =>
    split
    next hleast => simp [hleast]
    next item hleast =>
      show (state.closeBy item.2).victims = [] ↔ _
      rw [victims_closeBy]
      simp [hleast, Nat.not_lt.mp hfull]

/-- The first loop of `_reclaim` keeps the registry in order. -/
theorem Settled.sweep (hsettled : Settled settings state)
    (hkey : ∀ id, (key, id) ∉ state.registry) {now : ℕ} {items : List (κ × ℕ)}
    (hitems : Agrees state.registry items) :
    Kept settings (state.sweep settings key fingerprint now items) := by
  unfold State.sweep
  split
  · exact hsettled.evict hkey
  next item rest hsweep =>
    obtain ⟨hitem, hrest⟩ := mem_of_toSweep hsweep
    apply hsettled.closeBy
    refine ⟨hkey, fun id hmem hid => ?_, fun later hlater => hitems later (hrest later hlater)⟩
    exact (live_closeBy.mp hid).1 (hitems item hitem id hmem)

/-- The first loop of `_reclaim` makes a victim of a session that is not free. -/
theorem victims_sweep {now : ℕ} {items : List (κ × ℕ)} :
    (state.sweep settings key fingerprint now items).victims = [] ↔
      state.victims = [] ∧ state.SweepsFree settings now items := by
  unfold State.sweep State.SweepsFree
  split
  · exact victims_evict
  · exact victims_closeBy

/-! ## Steps without the lock -/

theorem live_modify {change : Session φ → Session φ}
    (hchange : (change (state.sessions id)).process = (state.sessions id).process) :
    (state.modify id change).live other ↔ state.live other := by
  unfold State.modify State.live
  by_cases hsame : other = id
  · simp [hsame, Session.alive, hchange]
  · simp [hsame]

/-- A step that leaves the registry and the lock alone and spawns nothing keeps everything. -/
theorem Kept.calm (hkept : Kept settings state) (hregistry : target.registry = state.registry)
    (hnext : target.next = state.next) (hholder : target.holder = state.holder)
    (hlive : ∀ id, target.live id → state.live id) : Kept settings target where
  wired :=
    { agrees := hregistry ▸ hkept.wired.agrees
      bounded := hregistry ▸ hkept.wired.bounded
      fresh := hregistry ▸ hnext ▸ hkept.wired.fresh
      held := fun acquire hacquire => by
        have hsound := hkept.wired.held acquire (hholder ▸ hacquire)
        unfold State.Sound at hsound ⊢
        rw [hregistry, hnext]
        split
        next hphase =>
          rw [hphase] at hsound
          exact fun id hmem hid => hsound id hmem (hlive id hid)
        next hphase =>
          rw [hphase] at hsound
          exact ⟨hsound.1, fun id hmem hid => hsound.2.1 id hmem (hlive id hid), hsound.2.2⟩
        next hphase =>
          rw [hphase] at hsound
          exact ⟨hsound.1, fun id hmem hid => hsound.2 id hmem (hlive id hid)⟩
        next hphase =>
          rw [hphase] at hsound
          exact hsound }
  owned id hid := by
    unfold State.Owned State.starting
    rw [hregistry, hholder]
    exact hkept.owned id (hlive id hid)

/-- A calm step leads to a state with the guarantee. -/
theorem Kept.right_of_calm (hkept : Kept settings state) (hspared : state.victims = [])
    (hregistry : target.registry = state.registry) (hnext : target.next = state.next)
    (hholder : target.holder = state.holder) (hvictims : target.victims = state.victims)
    (hlive : ∀ id, target.live id → state.live id) :
    Wired settings target ∧ Right settings target :=
  ⟨(hkept.calm hregistry hnext hholder hlive).wired,
    (hkept.calm hregistry hnext hholder hlive).right_iff.mpr (hvictims.trans hspared)⟩

theorem starting_of_holder (hholder : state.holder = none) : state.starting = none := by
  rw [State.starting, hholder]

/-- The harness that is spawned belongs to the session that is being started. -/
theorem Kept.spawned (hkept : Kept settings state) {acquire : Acquire κ φ}
    (hstarting : state.starting = some (acquire, id)) (change : Session φ → Session φ) :
    Kept settings (state.modify id change) where
  wired :=
    { agrees := hkept.wired.agrees
      bounded := hkept.wired.bounded
      fresh := hkept.wired.fresh
      held := fun own hown => by
        obtain ⟨hholder, hphase⟩ := starting_eq_some hstarting
        have hsound := hkept.wired.held acquire hholder
        rw [← Option.some.inj (hholder.symm.trans hown)]
        rw [State.Sound, hphase] at hsound ⊢
        exact hsound }
  owned other hlive := by
    by_cases hsame : other = id
    · exact .inr ⟨acquire, hsame ▸ hstarting⟩
    · apply hkept.owned
      rw [State.live, State.modify] at hlive
      dsimp only at hlive
      rwa [Function.update_of_ne hsame] at hlive

/-- A start that fails leaves nothing behind exactly when its harness is not live. -/
theorem Kept.fails (hkept : Kept settings state) (hspared : state.victims = []) :
    Wired settings { state with holder := none } ∧
      (Right settings { state with holder := none } ↔
        ∀ pair ∈ state.starting, ¬ state.live pair.2) := by
  have hwired : Wired settings { state with holder := none } :=
    { agrees := hkept.wired.agrees
      bounded := hkept.wired.bounded
      fresh := hkept.wired.fresh
      held := fun _ hnone => by cases hnone }
  refine ⟨hwired, ?_⟩
  apply Iff.intro
  · intro hright pair hpair hlive
    obtain ⟨hholder, hphase⟩ := starting_eq_some hpair
    have hsound := hkept.wired.held pair.1 hholder
    rw [State.Sound, hphase] at hsound
    rcases hright.owned pair.2 hlive with ⟨own, hmem⟩ | ⟨acquire, hown⟩
    · exact hsound.2.2.2 _ hmem rfl
    · cases hown
  · intro hdead
    have hkept' : Kept settings { state with holder := none } :=
      { wired := hwired
        owned := fun other hlive => by
          rcases hkept.owned other hlive with hmem | ⟨acquire, hown⟩
          · exact .inl hmem
          · exact absurd hlive (hdead _ hown) }
    exact hkept'.right_iff.mpr hspared

/-- Without a session nothing is out of order. -/
theorem wired_of_empty (hnone : state.registry = []) (hfree : state.holder = none) :
    Wired settings state where
  agrees := hnone ▸ fun _ hitem => absurd hitem List.not_mem_nil
  bounded := hnone ▸ Nat.zero_le _
  fresh := hnone ▸ fun _ hitem => absurd hitem List.not_mem_nil
  held _ hheld := by
    rw [hfree] at hheld
    cases hheld

/-- Without a session there may be no harness. -/
theorem right_of_empty_iff (hnone : state.registry = []) (hfree : state.holder = none)
    (hspared : state.victims = []) : Right settings state ↔ ∀ id, ¬ state.live id := by
  apply Iff.intro
  · intro hright id hlive
    rcases hright.owned id hlive with ⟨own, hmem⟩ | ⟨acquire, hown⟩
    · rw [hnone] at hmem
      cases hmem
    · rw [starting_of_holder hfree] at hown
      cases hown
  · intro hdead
    have hkept : Kept settings state :=
      ⟨wired_of_empty hnone hfree, fun id hlive => absurd hlive (hdead id)⟩
    exact hkept.right_iff.mpr hspared

/-- A shutdown leaves no harness exactly when it finds one live session at most. -/
theorem Kept.shutdown (hkept : Kept settings state) (hholder : state.holder = none)
    (hspared : state.victims = []) :
    Wired settings state.shutdown ∧
      (Right settings state.shutdown ↔ ∀ item ∈ state.registry, ∀ other ∈ state.registry,
        state.live item.2 → state.live other.2 → item.2 = other.2) := by
  have hregistered := (hkept.wired.settled (starting_of_holder hholder) hkept.owned).registered
  unfold State.shutdown
  split
  next hnone =>
    have hdead : ∀ item ∈ state.registry, ¬ state.live item.2 := by
      intro item hitem
      have hall := List.dropWhile_eq_nil_iff.mp hnone item.2 (List.mem_map.mpr ⟨item, hitem, rfl⟩)
      simpa [State.live] using hall
    refine ⟨wired_of_empty rfl hholder,
      Iff.trans (right_of_empty_iff ?_ ?_ ?_) (iff_of_true ?_ ?_)⟩
    · rfl
    · exact hholder
    · exact hspared
    · intro id hlive
      obtain ⟨own, hmem⟩ := hregistered id hlive
      exact hdead _ hmem hlive
    · exact fun item hitem _ _ hlive => absurd hlive (hdead item hitem)
  next first rest hsome =>
    have hfirst : first ∈ state.registry.map Prod.snd :=
      (hsome ▸ List.dropWhile_suffix _ : first :: rest <:+ _).subset List.mem_cons_self
    obtain ⟨item, hitem, rfl⟩ := List.mem_map.mp hfirst
    have hlive : state.live item.2 := by
      have hhead := List.head?_dropWhile_not (fun id => !(state.sessions id).alive)
        (state.registry.map Prod.snd)
      rw [hsome] at hhead
      simpa [State.live] using hhead
    refine ⟨wired_of_empty rfl hholder, Iff.trans (right_of_empty_iff ?_ ?_ ?_) (Iff.intro ?_ ?_)⟩
    · rfl
    · exact hholder
    · exact hspared
    · intro hdead
      have hsame : ∀ other, state.live other → other = item.2 := by
        intro other hother
        by_contra hne
        exact hdead other (live_kill.mpr ⟨hne, hother⟩)
      exact fun own _ other _ hown hother => (hsame _ hown).trans (hsame _ hother).symm
    · intro hone id hid
      obtain ⟨hne, hid⟩ := live_kill.mp hid
      obtain ⟨own, hmem⟩ := hregistered id hid
      exact hne (hone _ hmem _ hitem hid hlive)

/-! ## Steps with the lock -/

section

variable [DecidableEq κ]

/-- A session that is not live can be unregistered, after which its key has none. -/
theorem Settled.reclaim (hsettled : Settled settings state)
    (hdead : ∀ id, (key, id) ∈ state.registry → ¬ state.live id) :
    Kept settings ((state.unregister key).reclaim settings key fingerprint) :=
  (hsettled.unregister hdead).sweep (fun _ hmem => (Dict.mem_pop_iff.mp hmem).2 rfl)
    (hsettled.unregister hdead).agrees

/-- What holds of the state in which an acquire waits, it is in order when it goes on. -/
theorem Kept.resume (hkept : Kept settings state) {acquire : Acquire κ φ}
    (hholder : state.holder = some acquire)
    (hresume : state.resume settings acquire = some target) :
    Kept settings target ∧
      (target.victims = [] ↔ state.victims = [] ∧ state.ResumesFree settings acquire) := by
  have hsound := hkept.wired.held acquire hholder
  have hsettled : (∀ id, acquire.phase ≠ .starting id) → Settled settings state := by
    intro hphase
    apply hkept.wired.settled _ hkept.owned
    cases hstarting : state.starting with
    | none => rfl
    | some pair =>
      obtain ⟨hown, hstart⟩ := starting_eq_some hstarting
      rw [hholder] at hown
      cases hown
      exact absurd hstart (hphase pair.2)
  unfold State.resume at hresume
  unfold State.Sound at hsound
  unfold State.ResumesFree
  cases hphase : acquire.phase with
  | restarting =>
    rw [hphase] at hresume hsound hsettled
    cases hresume
    exact ⟨(hsettled fun _ => nofun).reclaim hsound, victims_sweep⟩
  | sweeping now closing rest =>
    rw [hphase] at hresume hsound hsettled
    cases hresume
    refine ⟨?_, victims_sweep⟩
    exact ((hsettled fun _ => nofun).unregister hsound.2.1).sweep
      (fun id hmem => hsound.1 id (Dict.mem_of_mem_pop hmem)) hsound.2.2.pop
  | evicting closing =>
    rw [hphase] at hresume hsound hsettled
    cases hresume
    refine ⟨?_, victims_evict⟩
    exact ((hsettled fun _ => nofun).unregister hsound.2).evict
      fun id hmem => hsound.1 id (Dict.mem_of_mem_pop hmem)
  | starting id =>
    rw [hphase] at hresume
    cases hresume

/-- An acquire keeps the registry in order, and what it closes is a victim where it is used. -/
theorem Kept.acquire [DecidableEq φ] (hkept : Kept settings state) (hholder : state.holder = none) :
    Kept settings (state.acquire settings key fingerprint) ∧
      ((state.acquire settings key fingerprint).victims = [] ↔
        state.victims = [] ∧ state.AcquiresFree settings key fingerprint) := by
  have hsettled := hkept.wired.settled (starting_of_holder hholder) hkept.owned
  unfold State.acquire State.AcquiresFree
  cases hget : state.registry.get key with
  | none =>
    exact ⟨hsettled.sweep (Dict.not_mem_of_get hget) hsettled.agrees, victims_sweep⟩
  | some id =>
    have hown : ∀ other, (key, other) ∈ state.registry → other = id :=
      hsettled.agrees (key, id) (Dict.mem_of_get hget)
    dsimp only
    by_cases halive : (state.sessions id).alive = true
    · rw [if_pos halive, if_pos halive]
      by_cases hchanged : (state.sessions id).fingerprint ≠ fingerprint
      · rw [if_pos hchanged]
        refine ⟨hsettled.closeBy fun other hmem hlive => ?_, ?_⟩
        · exact (live_closeBy.mp hlive).1 (hown other hmem)
        · exact victims_closeBy.trans (and_congr_right fun _ =>
            ⟨fun hfree _ => hfree, fun hfree => hfree hchanged⟩)
      · rw [if_neg hchanged]
        refine ⟨hkept.calm rfl rfl rfl fun _ => (live_modify rfl).mp, ?_⟩
        exact ⟨fun hnone => ⟨hnone, fun hother => absurd hother hchanged⟩, fun hboth => hboth.1⟩
    · rw [if_neg halive, if_neg halive]
      refine ⟨hsettled.reclaim fun other hmem hlive => ?_, victims_sweep⟩
      rw [hown other hmem] at hlive
      exact halive hlive

theorem Kept.started (hkept : Kept settings state) {acquire : Acquire κ φ}
    (hstarting : state.starting = some (acquire, id)) (change : Session φ → Session φ)
    (hchange : ∀ session, (change session).process = session.process) :
    Kept settings ({ state.modify id change with
      registry := state.registry.set acquire.key id, holder := none } : State κ φ) := by
  obtain ⟨hholder, hphase⟩ := starting_eq_some hstarting
  have hsound := hkept.wired.held acquire hholder
  rw [State.Sound, hphase] at hsound
  obtain ⟨hkey, hroom, hid, hnew⟩ := hsound
  have hset : state.registry.set acquire.key id = state.registry ++ [(acquire.key, id)] :=
    Dict.set_of_not_mem fun hmem => by
      obtain ⟨item, hitem, hsame⟩ := List.mem_map.mp hmem
      exact hkey item.2 (hsame ▸ hitem)
  have hmem : ∀ item, item ∈ state.registry.set acquire.key id ↔
      item ∈ state.registry ∨ item = (acquire.key, id) := by
    intro item
    rw [hset, List.mem_append, List.mem_singleton]
  exact
    { wired :=
        { agrees := fun item hitem other hother => by
            rcases (hmem _).mp hitem with hold | rfl
            · rcases (hmem _).mp hother with hold' | hsame
              · exact hkept.wired.agrees item hold other hold'
              · exact absurd ((Prod.mk.inj hsame).1 ▸ hold) (hkey item.2)
            · rcases (hmem _).mp hother with hold' | hsame
              · exact absurd hold' (hkey other)
              · exact (Prod.mk.inj hsame).2
          bounded := by
            show (state.registry.set acquire.key id).length ≤ _
            rw [hset, List.length_append]
            exact hroom
          fresh := fun item hitem => by
            rcases (hmem _).mp hitem with hold | rfl
            · exact hkept.wired.fresh item hold
            · exact hid
          held := fun _ hnone => by cases hnone }
      owned := fun other hlive => by
        rcases hkept.owned other ((live_modify (hchange _)).mp hlive) with ⟨own, hold⟩ | ⟨own, hown⟩
        · exact .inl ⟨own, (hmem _).mpr (.inl hold)⟩
        · rw [hstarting] at hown
          cases hown
          exact .inl ⟨acquire.key, (hmem _).mpr (.inr rfl)⟩ }

theorem Kept.stop (hkept : Kept settings state) (hholder : state.holder = none)
    (hget : state.registry.get key = some id) :
    Kept settings ((state.unregister key).kill id) where
  wired :=
    { agrees := fun item hitem other hother => hkept.wired.agrees item
        (Dict.mem_of_mem_pop hitem) other (Dict.mem_of_mem_pop hother)
      bounded := (List.length_filter_le _ _).trans hkept.wired.bounded
      fresh := fun item hitem => hkept.wired.fresh item (Dict.mem_of_mem_pop hitem)
      held := fun acquire hacquire => by
        rw [show state.holder = some acquire from hacquire] at hholder
        cases hholder }
  owned other hlive := by
    obtain ⟨hne, hlive⟩ := live_kill.mp hlive
    rcases hkept.owned other hlive with ⟨own, hmem⟩ | ⟨acquire, hown⟩
    · refine .inl ⟨own, Dict.mem_pop_iff.mpr ⟨hmem, ?_⟩⟩
      rintro rfl
      exact hne (hkept.wired.agrees _ (Dict.mem_of_get hget) other hmem)
    · rw [starting_of_holder hholder] at hown
      cases hown

/-! ## Every run -/

variable [DecidableEq φ]

/-- A step keeps the registry in order, and it keeps the guarantee exactly when it is careful. -/
theorem right_iff_careful {event : Event κ φ} (hwired : Wired settings state)
    (hright : Right settings state) (hstep : step settings state event = some target) :
    Wired settings target ∧ (Right settings target ↔ Careful settings state event) := by
  have hkept : Kept settings state := ⟨hwired, hright.owned⟩
  have hspared := hright.spared
  -- What a step does that has no condition.
  have hcalm : Wired settings target ∧ Right settings target →
      (Careful settings state event ↔ True) →
        Wired settings target ∧ (Right settings target ↔ Careful settings state event) :=
    fun hboth htrue => ⟨hboth.1, iff_of_true hboth.2 (htrue.mpr trivial)⟩
  cases event with
  | acquire key fingerprint =>
    simp only [step] at hstep
    split at hstep
    next hholder =>
      cases hstep
      obtain ⟨htarget, hvictims⟩ := hkept.acquire hholder
      exact ⟨htarget.wired, htarget.right_iff.trans (hvictims.trans (and_iff_right hspared))⟩
    · cases hstep
  | resume =>
    obtain ⟨acquire, hholder, hresume⟩ := Option.bind_eq_some_iff.mp hstep
    obtain ⟨htarget, hvictims⟩ := hkept.resume hholder hresume
    refine ⟨htarget.wired, htarget.right_iff.trans (hvictims.trans ?_)⟩
    rw [and_iff_right hspared]
    apply Iff.intro
    · intro hfree other hother
      rw [← Option.some.inj (hholder.symm.trans hother)]
      exact hfree
    · exact fun hall => hall acquire hholder
  | spawned =>
    simp only [step] at hstep
    split at hstep
    next acquire id hstarting =>
      split at hstep
      · cases hstep
        have htarget := hkept.spawned hstarting fun session =>
          { session with process := .running }
        exact hcalm ⟨htarget.wired, htarget.right_iff.mpr hspared⟩ Iff.rfl
      · cases hstep
    · cases hstep
  | started =>
    simp only [step] at hstep
    split at hstep
    next acquire id hstarting =>
      split at hstep
      · cases hstep
      · cases hstep
        have htarget := hkept.started hstarting
          (fun session => { session with granted := session.granted + 1 }) fun _ => rfl
        exact hcalm ⟨htarget.wired, htarget.right_iff.mpr hspared⟩ Iff.rfl
    · cases hstep
  | fails =>
    obtain ⟨acquire, -, rfl⟩ := Option.map_eq_some_iff.mp hstep
    exact hkept.fails hspared
  | prompt id =>
    simp only [step] at hstep
    split at hstep
    · cases hstep
    · cases hstep
      refine hcalm (hkept.right_of_calm hspared rfl rfl rfl rfl fun _ => (live_modify ?_).mp) Iff.rfl
      split <;> rfl
  | forgets id =>
    simp only [step] at hstep
    split at hstep
    · cases hstep
    · cases hstep
      exact hcalm (hkept.right_of_calm hspared rfl rfl rfl rfl fun _ => (live_modify rfl).mp) Iff.rfl
  | promptEnds id =>
    simp only [step] at hstep
    split at hstep
    · cases hstep
      exact hcalm (hkept.right_of_calm hspared rfl rfl rfl rfl fun _ => (live_modify rfl).mp) Iff.rfl
    · cases hstep
  | crash id =>
    simp only [step] at hstep
    split at hstep
    next halive =>
      cases hstep
      refine hcalm (hkept.right_of_calm hspared rfl rfl rfl rfl fun other hlive => ?_) Iff.rfl
      by_cases hsame : other = id
      · exact hsame ▸ halive
      · rw [State.live, State.modify] at hlive
        dsimp only at hlive
        rwa [Function.update_of_ne hsame] at hlive
    · cases hstep
  | stop key =>
    simp only [step] at hstep
    split at hstep
    · cases hstep
    next hholder =>
      split at hstep
      · cases hstep
        exact hcalm ⟨hwired, hright⟩ Iff.rfl
      next id hget =>
        cases hstep
        have htarget := hkept.stop hholder hget
        exact hcalm ⟨htarget.wired, htarget.right_iff.mpr hspared⟩ Iff.rfl
  | shutdown =>
    simp only [step] at hstep
    split at hstep
    · cases hstep
    next hholder =>
      cases hstep
      exact hkept.shutdown hholder hspared
  | closes id =>
    simp only [step] at hstep
    split at hstep
    · cases hstep
      exact hcalm (hkept.right_of_calm hspared rfl rfl rfl rfl fun _ hlive =>
        (live_kill.mp hlive).2) Iff.rfl
    · cases hstep
  | tick seconds =>
    cases hstep
    exact hcalm (hkept.right_of_calm hspared rfl rfl rfl rfl fun _ hlive => hlive) Iff.rfl

/-- Every state of a run has the guarantee exactly when every step of the run is careful. -/
theorem path_kept_iff_careful [Inhabited φ] (settings : Settings) (events : List (Event κ φ))
    (state : State κ φ) :
    (machine settings).Path ((machine settings).LeadsTo (Right settings)) events state ↔
      (machine settings).Path (Careful settings) events state :=
  Machine.path_congr (P := fun state => Wired settings state ∧ Right settings state)
    ⟨wired_of_empty rfl rfl,
      (right_of_empty_iff rfl rfl rfl).mpr fun _ hlive => Bool.noConfusion hlive⟩
    (fun hP permitted hstep => ⟨(right_iff_careful hP.1 hP.2 hstep).1, permitted _ hstep⟩)
    fun hP hstep => by
      rw [← (right_iff_careful hP.1 hP.2 hstep).2]
      exact ⟨fun hleads => hleads _ hstep, fun hright target hother =>
        Option.some.inj (hstep.symm.trans hother) ▸ hright⟩

/-- A harness that did not initialize in time lives on without a session. -/
theorem not_right_of_failed_start :
    ¬ ∀ (settings : Settings) (events : List (Event ℕ ℕ)) (state : State ℕ ℕ),
      (machine settings).Path Machine.anyStep events state → Right settings state := by
  intro hclaim
  have hpath : (machine (κ := ℕ) (φ := ℕ) ⟨4, 900⟩).Path Machine.anyStep
      [.acquire 0 0, .spawned, .fails] _ := Machine.path_of_runFrom rfl
  rcases (hclaim _ _ _ hpath).owned 0 rfl with ⟨key, hmem⟩ | ⟨acquire, hown⟩
  · cases hmem
  · cases hown

end

end DbtCraft.Agent.SessionRegistry

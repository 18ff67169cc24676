/-
# A due time is launched once

Nothing in the code of the scheduler ties the claim of a due schedule to the row
it was read from: the lease may have passed on, and an edit may bring an earlier
due time back. A due time is launched at most once as long as a row still holds the
due time it was selected with when it is advanced, a schedule without one is not
armed for a time already used, and an edit that keeps the cron finds the due time it
has read.
-/

import DbtCraft.Services.Scheduler
import Mathlib.Data.Fintype.Basic
import Mathlib.Data.List.Nodup

namespace DbtCraft.Services.Scheduler

open DbtCraft.Math DbtCraft.Python DbtCraft.Services.RunOutcome

universe uι uσ uε uπ uκ

variable {ι : Type uι} {σ : Type uσ} {ε : Type uε} {π : Type uπ} {κ : Type uκ}
  {deployment : Deployment ι σ ε π κ} {state next : State ι σ ε π κ} {event : Event ι σ ε π κ}
  {events : List (Event ι σ ε π κ)} {process : ι} {schedule : σ} {now : ℕ}

/-- The due time that a process has claimed and not launched yet. -/
def Phase.claim : Phase σ π κ → Option (σ × ℕ)
  | .launching _ schedule dueAt _ => some (schedule, dueAt)
  | .idle | .comparing | .refreshing | .leading | .selecting _ | .handling _ _
  | .recording _ _ _ _ | .stopped => none

/-- The selected rows are due. -/
def Phase.Timely : Phase σ π κ → Prop
  | .handling now rest | .launching now _ _ rest | .recording now _ _ rest =>
    ∀ item ∈ rest, ∀ dueAt ∈ item.2.nextRunAt, dueAt ≤ now
  | .idle | .comparing | .refreshing | .leading | .selecting _ | .stopped => True

/-- The due times of a schedule that are used are not after this time. -/
def State.UsedUntil (state : State ι σ ε π κ) (schedule : σ) (now : ℕ) : Prop :=
  (∀ claim ∈ state.launches, claim.1 = schedule → claim.2 ≤ now) ∧
    ∀ process, ∀ claim ∈ (state.phase process).claim, claim.1 = schedule → claim.2 ≤ now

variable [DecidableEq σ]

/-- The row that a process advances holds what it was selected with. -/
def State.Current (state : State ι σ ε π κ) (now : ℕ) (schedule : σ) (selected : Row π κ) :
    Prop :=
  (∃ row ∈ state.rows.get schedule, row.nextRunAt = selected.nextRunAt) ∧
    (selected.nextRunAt = none → state.UsedUntil schedule now)

/-- The next row a process advances is current. -/
def State.AdvancesCurrent (state : State ι σ ε π κ) (process : ι) : Prop :=
  match state.phase process with
  | .handling now ((schedule, row) :: _) => state.Current now schedule row
  | _ => True

/-- An edit that keeps the cron finds the due time it has read. -/
def State.WritesCurrent (deployment : Deployment ι σ ε π κ) (state : State ι σ ε π κ)
    (edit : ε) : Prop :=
  ∀ row ∈ state.rows.get (deployment.edit edit).schedule,
    match state.editPhase edit with
    | .editing cron nextRunAt => cron = (deployment.edit edit).cron → row.nextRunAt = nextRunAt
    | _ => True

/-- Nothing comes between a read of a due time and the write that rests on it. -/
def Uncontested (deployment : Deployment ι σ ε π κ) (state : State ι σ ε π κ) :
    Event ι σ ε π κ → Prop
  | .advance process | .failAdvance process true => state.AdvancesCurrent process
  | .writeSchedule edit => state.WritesCurrent deployment edit
  | _ => True

section

variable [Fintype ι]

instance (state : State ι σ ε π κ) (schedule : σ) (now : ℕ) :
    Decidable (state.UsedUntil schedule now) :=
  inferInstanceAs (Decidable (_ ∧ _))

instance (state : State ι σ ε π κ) (now : ℕ) (schedule : σ) (selected : Row π κ) :
    Decidable (state.Current now schedule selected) :=
  inferInstanceAs (Decidable (_ ∧ _))

instance (state : State ι σ ε π κ) (process : ι) : Decidable (state.AdvancesCurrent process) :=
  match hphase : state.phase process with
  | .handling now ((schedule, row) :: _) =>
    decidable_of_iff (state.Current now schedule row) (by simp only [State.AdvancesCurrent, hphase])
  | .handling _ [] | .idle | .comparing | .refreshing | .leading | .selecting _
  | .launching _ _ _ _ | .recording _ _ _ _ | .stopped =>
    isTrue (by simp only [State.AdvancesCurrent, hphase])

instance [DecidableEq κ] (deployment : Deployment ι σ ε π κ) (state : State ι σ ε π κ)
    (edit : ε) : Decidable (state.WritesCurrent deployment edit) :=
  match hphase : state.editPhase edit with
  | .editing cron nextRunAt =>
    decidable_of_iff (∀ row ∈ state.rows.get (deployment.edit edit).schedule,
      cron = (deployment.edit edit).cron → row.nextRunAt = nextRunAt)
      (by simp only [State.WritesCurrent, hphase])
  | .idle | .finished =>
    isTrue (by simp [State.WritesCurrent, hphase])

instance [DecidableEq κ] (deployment : Deployment ι σ ε π κ) (state : State ι σ ε π κ) :
    (event : Event ι σ ε π κ) → Decidable (Uncontested deployment state event)
  | .advance process | .failAdvance process true =>
    inferInstanceAs (Decidable (state.AdvancesCurrent process))
  | .writeSchedule edit => inferInstanceAs (Decidable (state.WritesCurrent deployment edit))
  | .failAdvance _ false | .acquire _ | .compare _ | .refresh _ | .standIn _ | .beginTick _ _
  | .select _ _ | .launch _ _ | .record _ | .failRecord _ | .endTick _ | .fail _ | .stop _ _
  | .create _ | .readSchedule _ | .deleteSchedule _ | .deleteProject _ | .writeRun _ _ | .load _
  | .recordOutcome _ | .failOutcome _ | .second => isTrue trivial

end

/-! ## The claims -/

omit [DecidableEq σ] in
/-- A due time that has been launched, or is going to be. -/
def Used (phase : ι → Phase σ π κ) (launches : List (σ × ℕ)) (claim : σ × ℕ) : Prop :=
  claim ∈ launches ∨ ∃ process, (phase process).claim = some claim

/-- Every used due time is used once, and earlier than the one the row holds. -/
structure ClaimsRight (phase : ι → Phase σ π κ) (rows : Dict σ (Row π κ))
    (launches : List (σ × ℕ)) : Prop where
  nodup : launches.Nodup
  apart : ∀ process claim, (phase process).claim = some claim → claim ∉ launches
  alone : ∀ process other claim, (phase process).claim = some claim →
    (phase other).claim = some claim → process = other
  before : ∀ schedule row upcoming, rows.get schedule = some row →
    row.nextRunAt = some upcoming →
    ∀ dueAt, Used phase launches (schedule, dueAt) → dueAt < upcoming
  timely : ∀ process, (phase process).Timely

namespace ClaimsRight

variable {phase : ι → Phase σ π κ} {rows updated : Dict σ (Row π κ)} {launches : List (σ × ℕ)}
  {after : Phase σ π κ} {dueAt : ℕ}

theorem setRows (hright : ClaimsRight phase rows launches)
    (hkept : ∀ schedule row upcoming, updated.get schedule = some row →
      row.nextRunAt = some upcoming →
      ∃ earlier, rows.get schedule = some earlier ∧ earlier.nextRunAt = some upcoming) :
    ClaimsRight phase updated launches := by
  refine { hright with before := ?_ }
  intro schedule row upcoming hget hupcoming
  obtain ⟨earlier, hearlier, hsame⟩ := hkept schedule row upcoming hget hupcoming
  exact hright.before schedule earlier upcoming hearlier hsame

/-- A row gets a due time after all that are used. -/
theorem setRow (hright : ClaimsRight phase rows launches)
    (hused : ∀ dueAt, Used phase launches (schedule, dueAt) → dueAt ≤ now)
    (hrow : ∀ row upcoming, updated.get schedule = some row → row.nextRunAt = some upcoming →
      now < upcoming)
    (hothers : ∀ other, other ≠ schedule → updated.get other = rows.get other) :
    ClaimsRight phase updated launches := by
  refine { hright with before := ?_ }
  intro other row upcoming hget hupcoming dueAt hdue
  by_cases hother : other = schedule
  · subst other
    exact lt_of_le_of_lt (hused dueAt hdue) (hrow row upcoming hget hupcoming)
  · rw [hothers other hother] at hget
    exact hright.before other row upcoming hget hupcoming dueAt hdue

variable [DecidableEq ι]

omit [DecidableEq σ] in
/-- A process that moves on uses nothing new. -/
theorem claim_of_update (hafter : after.claim = none) {other : ι} {claim : σ × ℕ}
    (hclaim : (Function.update phase process after other).claim = some claim) :
    other ≠ process ∧ (phase other).claim = some claim := by
  by_cases hother : other = process
  · subst other
    simp [hafter] at hclaim
  · exact ⟨hother, by simpa [hother] using hclaim⟩

theorem timely_update (hright : ClaimsRight phase rows launches) (htimely : after.Timely)
    (other : ι) : (Function.update phase process after other).Timely := by
  by_cases hother : other = process
  · subst other
    simpa using htimely
  · simpa [hother] using hright.timely other

theorem setPhase (hright : ClaimsRight phase rows launches) (hafter : after.claim = none)
    (htimely : after.Timely) :
    ClaimsRight (Function.update phase process after) rows launches where
  nodup := hright.nodup
  apart other claim hclaim := hright.apart other claim (claim_of_update hafter hclaim).2
  alone first second claim hfirst hsecond :=
    hright.alone first second claim (claim_of_update hafter hfirst).2
      (claim_of_update hafter hsecond).2
  before schedule row upcoming hget hupcoming dueAt hused := by
    apply hright.before schedule row upcoming hget hupcoming
    exact hused.imp_right fun ⟨other, hclaim⟩ => ⟨other, (claim_of_update hafter hclaim).2⟩
  timely := hright.timely_update htimely

theorem launch (hright : ClaimsRight phase rows launches)
    (hclaim : (phase process).claim = some (schedule, dueAt)) (hafter : after.claim = none)
    (htimely : after.Timely) :
    ClaimsRight (Function.update phase process after) rows (launches ++ [(schedule, dueAt)]) where
  nodup := by
    apply hright.nodup.append (List.nodup_singleton _)
    intro claim hlaunched hnew
    rw [List.mem_singleton.mp hnew] at hlaunched
    exact hright.apart process _ hclaim hlaunched
  apart other claim hother hlaunched := by
    obtain ⟨hne, hbefore⟩ := claim_of_update hafter hother
    rcases List.mem_append.mp hlaunched with hearlier | hnew
    · exact hright.apart other claim hbefore hearlier
    · rw [List.mem_singleton.mp hnew] at hbefore
      exact hne (hright.alone other process _ hbefore hclaim)
  alone first second claim hfirst hsecond :=
    hright.alone first second claim (claim_of_update hafter hfirst).2
      (claim_of_update hafter hsecond).2
  before other row upcoming hget hupcoming due hused := by
    apply hright.before other row upcoming hget hupcoming
    rcases hused with hlaunched | ⟨holder, hholder⟩
    · rcases List.mem_append.mp hlaunched with hearlier | hnew
      · exact Or.inl hearlier
      · rw [List.mem_singleton.mp hnew]
        exact Or.inr ⟨process, hclaim⟩
    · exact Or.inr ⟨holder, (claim_of_update hafter hholder).2⟩
  timely := hright.timely_update htimely

theorem claim (hright : ClaimsRight phase rows launches)
    (hafter : after.claim = some (schedule, dueAt)) (htimely : after.Timely)
    (hfree : ¬ Used phase launches (schedule, dueAt))
    (hbefore : ∀ row upcoming, rows.get schedule = some row → row.nextRunAt = some upcoming →
      dueAt < upcoming) :
    ClaimsRight (Function.update phase process after) rows launches := by
  have hclaims : ∀ other claim, (Function.update phase process after other).claim = some claim →
      other = process ∧ claim = (schedule, dueAt) ∨
        other ≠ process ∧ (phase other).claim = some claim := by
    intro other claim hclaim
    by_cases hother : other = process
    · subst other
      simp only [Function.update_self, hafter, Option.some.injEq] at hclaim
      exact Or.inl ⟨rfl, hclaim.symm⟩
    · exact Or.inr ⟨hother, by simpa [hother] using hclaim⟩
  constructor
  · exact hright.nodup
  · intro other claim hclaim hlaunched
    rcases hclaims other claim hclaim with ⟨-, rfl⟩ | ⟨-, hold⟩
    · exact hfree (Or.inl hlaunched)
    · exact hright.apart other claim hold hlaunched
  · intro first second claim hfirst hsecond
    rcases hclaims first claim hfirst with ⟨hsame, hnew⟩ | ⟨-, hold⟩
    · rcases hclaims second claim hsecond with ⟨hsame', -⟩ | ⟨-, hold⟩
      · rw [hsame, hsame']
      · rw [hnew] at hold
        exact absurd (Or.inr ⟨second, hold⟩) hfree
    · rcases hclaims second claim hsecond with ⟨-, hnew⟩ | ⟨-, hold'⟩
      · rw [hnew] at hold
        exact absurd (Or.inr ⟨first, hold⟩) hfree
      · exact hright.alone first second claim hold hold'
  · intro other row upcoming hget hupcoming due hused
    rcases hused with hlaunched | ⟨holder, hholder⟩
    · exact hright.before other row upcoming hget hupcoming due (Or.inl hlaunched)
    · rcases hclaims holder _ hholder with ⟨-, hnew⟩ | ⟨-, hold⟩
      · cases hnew
        exact hbefore row upcoming hget hupcoming
      · exact hright.before other row upcoming hget hupcoming due (Or.inr ⟨holder, hold⟩)
  · exact hright.timely_update htimely

end ClaimsRight

/-! ## Rows -/

/-- An `UPDATE` changes its row only. -/
theorem get_updateRow {update : Row π κ → Row π κ} {other : σ} :
    (state.updateRow schedule update).get other =
      if other = schedule then (state.rows.get other).map update else state.rows.get other := by
  unfold State.updateRow
  by_cases hother : other = schedule
  · subst other
    cases hget : state.rows.get schedule with
    | none => simp [hget]
    | some row => simp
  · cases hget : state.rows.get schedule with
    | none => simp [hother]
    | some row => simp [hother]

theorem nextRunAt_of_updateRow {update : Row π κ → Row π κ}
    (hupdate : ∀ row ∈ state.rows.get schedule,
      (update row).nextRunAt = row.nextRunAt ∨ (update row).nextRunAt = none) :
    ∀ other row upcoming, (state.updateRow schedule update).get other = some row →
      row.nextRunAt = some upcoming →
      ∃ earlier, state.rows.get other = some earlier ∧ earlier.nextRunAt = some upcoming := by
  intro other row upcoming hget hupcoming
  rw [get_updateRow] at hget
  split at hget
  next hother =>
    obtain ⟨earlier, hearlier, rfl⟩ := Option.map_eq_some_iff.mp hget
    refine ⟨earlier, hearlier, ?_⟩
    rcases hupdate earlier (hother ▸ hearlier) with hsame | hnone
    · rw [← hsame]
      exact hupcoming
    · rw [hnone] at hupcoming
      cases hupcoming
  · exact ⟨row, hget, hupcoming⟩

/-- The row that is advanced gets a due time after the tick. -/
theorem get_advanced (hfire : ∀ cron now upcoming,
      deployment.nextFireTime cron now = some upcoming → now < upcoming)
    {selected row : Row π κ} {upcoming : ℕ}
    (hget : (state.advanced deployment now schedule selected).get schedule = some row)
    (hupcoming : row.nextRunAt = some upcoming) : now < upcoming := by
  unfold State.advanced at hget
  rw [get_updateRow, if_pos rfl] at hget
  obtain ⟨earlier, -, rfl⟩ := Option.map_eq_some_iff.mp hget
  exact hfire selected.cron now upcoming hupcoming

theorem get_advanced_of_ne {selected : Row π κ} {other : σ} (hother : other ≠ schedule) :
    (state.advanced deployment now schedule selected).get other = state.rows.get other := by
  unfold State.advanced
  rw [get_updateRow, if_neg hother]

/-! ## Steps -/

/-- What a current row says of the due times of its schedule that are used. -/
theorem used_of_current {selected : Row π κ}
    (hright : ClaimsRight state.phase state.rows state.launches)
    (hcurrent : state.Current now schedule selected)
    (htimely : ∀ dueAt ∈ selected.nextRunAt, dueAt ≤ now) {dueAt : ℕ}
    (hused : Used state.phase state.launches (schedule, dueAt)) :
    dueAt ≤ now ∧ ∀ selectedAt ∈ selected.nextRunAt, dueAt < selectedAt := by
  obtain ⟨⟨row, hget, hsame⟩, harmed⟩ := hcurrent
  cases hselected : selected.nextRunAt with
  | none =>
    refine ⟨?_, by simp⟩
    obtain ⟨hlaunches, hclaims⟩ := harmed hselected
    rcases hused with hlaunched | ⟨process, hclaim⟩
    · exact hlaunches _ hlaunched rfl
    · exact hclaims process _ hclaim rfl
  | some selectedAt =>
    have hearlier := hright.before schedule row selectedAt hget (hsame.trans hselected) dueAt hused
    refine ⟨hearlier.le.trans (htimely selectedAt hselected), ?_⟩
    intro other hother
    cases hother
    exact hearlier

/-- A current row is advanced past every due time that is used. -/
theorem ClaimsRight.advance (hright : ClaimsRight state.phase state.rows state.launches)
    (hfire : ∀ cron now upcoming, deployment.nextFireTime cron now = some upcoming → now < upcoming)
    {selected : Row π κ}
    (hused : ∀ dueAt, Used state.phase state.launches (schedule, dueAt) → dueAt ≤ now) :
    ClaimsRight state.phase (state.advanced deployment now schedule selected) state.launches := by
  apply hright.setRow hused
  · exact fun row upcoming hget hupcoming => get_advanced hfire hget hupcoming
  · exact fun other hother => get_advanced_of_ne hother

variable [DecidableEq ι] [DecidableEq ε] [DecidableEq π] [DecidableEq κ]

theorem claimsRight_init : ClaimsRight (machine deployment).init.phase
    (machine deployment).init.rows (machine deployment).init.launches where
  nodup := List.nodup_nil
  apart _ _ hclaim := by cases hclaim
  alone _ _ _ hclaim := by cases hclaim
  before _ _ _ hget := by cases hget
  timely _ := trivial

theorem claimsRight_step (hfire : ∀ cron now upcoming,
      deployment.nextFireTime cron now = some upcoming → now < upcoming)
    (hright : ClaimsRight state.phase state.rows state.launches)
    (hclear : Uncontested deployment state event)
    (hstep : step deployment state event = some next) :
    ClaimsRight next.phase next.rows next.launches := by
  have htail : ∀ {process : ι} {now : ℕ} {item : σ × Row π κ} {rest : List (σ × Row π κ)},
      state.phase process = .handling now (item :: rest) →
        (∀ dueAt ∈ item.2.nextRunAt, dueAt ≤ now) ∧
          ∀ other ∈ rest, ∀ dueAt ∈ other.2.nextRunAt, dueAt ≤ now := by
    intro process now item rest hphase
    have htimely := hright.timely process
    rw [hphase] at htimely
    exact ⟨htimely item (by simp), fun other hother => htimely other (by simp [hother])⟩
  cases event with
  | acquire process =>
    simp only [step] at hstep
    split at hstep
    · split at hstep <;> cases hstep
      · exact hright.setPhase rfl trivial
      · exact hright.setPhase rfl trivial
    · cases hstep
  | compare process =>
    simp only [step] at hstep
    split at hstep
    · split at hstep <;> cases hstep
      · exact hright.setPhase rfl trivial
      · exact hright.setPhase rfl trivial
    · cases hstep
  | refresh process | standIn process | beginTick process now | endTick process | fail process =>
    simp only [step] at hstep
    split at hstep <;> cases hstep
    all_goals exact hright.setPhase rfl trivial
  | stop process released =>
    cases hstep
    exact hright.setPhase rfl trivial
  | select process due =>
    simp only [step] at hstep
    split at hstep
    next now hphase =>
      split at hstep <;> cases hstep
      next hselected =>
        apply hright.setPhase rfl
        intro item hitem dueAt hdueAt
        have hmem := (List.mem_filter.mp (hselected.1.subset hitem)).2
        exact (of_decide_eq_true hmem).2.2 dueAt hdueAt
    · cases hstep
  | advance process =>
    simp only [step] at hstep
    split at hstep
    next now schedule row rest hphase =>
      cases hstep
      obtain ⟨hdue, hrest⟩ := htail hphase
      simp only [Uncontested, State.AdvancesCurrent, hphase] at hclear
      have hused : ∀ dueAt, Used state.phase state.launches (schedule, dueAt) →
          dueAt ≤ now ∧ ∀ selectedAt ∈ row.nextRunAt, dueAt < selectedAt :=
        fun _ => used_of_current hright hclear hdue
      have hadvanced : ClaimsRight state.phase (state.advanced deployment now schedule row)
          state.launches := hright.advance hfire fun dueAt hdueAt => (hused dueAt hdueAt).1
      unfold afterAdvance
      split
      next upcoming dueAt hupcoming hdueAt =>
        split
        · exact hadvanced.setPhase rfl hrest
        · refine hadvanced.claim rfl ?_ ?_ ?_
          · exact hrest
          · exact fun hclaimed => lt_irrefl dueAt ((hused dueAt hclaimed).2 dueAt hdueAt)
          · intro current after hget hafter
            exact lt_of_le_of_lt (hdue dueAt hdueAt) (get_advanced hfire hget hafter)
      · exact hadvanced.setPhase rfl hrest
    · cases hstep
  | failAdvance process applied =>
    simp only [step] at hstep
    split at hstep
    next now schedule row rest hphase =>
      cases hstep
      obtain ⟨hdue, hrest⟩ := htail hphase
      cases applied with
      | false => exact hright.setPhase rfl hrest
      | true =>
        simp only [Uncontested, State.AdvancesCurrent, hphase] at hclear
        have hused : ∀ dueAt, Used state.phase state.launches (schedule, dueAt) →
            dueAt ≤ now := fun _ hdueAt => (used_of_current hright hclear hdue hdueAt).1
        exact (hright.advance hfire hused).setPhase rfl hrest
    · cases hstep
  | launch process started =>
    simp only [step] at hstep
    split at hstep
    next now schedule dueAt rest hphase =>
      have htimely := hright.timely process
      rw [hphase] at htimely
      split at hstep <;> cases hstep
      all_goals exact hright.launch (by rw [hphase]; rfl) rfl htimely
    · cases hstep
  | record process =>
    simp only [step] at hstep
    split at hstep <;> cases hstep
    next hphase =>
      have htimely := hright.timely process
      rw [hphase] at htimely
      refine ClaimsRight.setPhase (hright.setRows ?_) rfl ?_
      · exact nextRunAt_of_updateRow fun _ _ => Or.inl rfl
      · exact htimely
  | failRecord process =>
    simp only [step] at hstep
    split at hstep <;> cases hstep
    next hphase =>
      have htimely := hright.timely process
      rw [hphase] at htimely
      exact hright.setPhase rfl htimely
  | create edit =>
    simp only [step] at hstep
    split at hstep <;> cases hstep
    apply hright.setRows
    intro schedule row upcoming hget hupcoming
    rw [Dict.get_set] at hget
    split at hget
    · cases hget
      cases hupcoming
    · exact ⟨row, hget, hupcoming⟩
  | readSchedule edit =>
    simp only [step] at hstep
    split at hstep <;> cases hstep
    exact hright
  | writeSchedule edit =>
    simp only [step] at hstep
    split at hstep <;> cases hstep
    next cron nextRunAt hphase =>
      simp only [Uncontested, State.WritesCurrent, hphase] at hclear
      apply hright.setRows
      apply nextRunAt_of_updateRow
      intro row hget
      dsimp only
      split
      next hcron => exact Or.inl (hclear row hget hcron).symm
      · exact Or.inr rfl
  | deleteSchedule schedule =>
    cases hstep
    apply hright.setRows
    intro other row upcoming hget hupcoming
    rw [Dict.get_pop] at hget
    split at hget
    · cases hget
    · exact ⟨row, hget, hupcoming⟩
  | deleteProject project =>
    cases hstep
    exact hright
  | recordOutcome run =>
    simp only [step] at hstep
    split at hstep <;> cases hstep
    apply hright.setRows
    exact nextRunAt_of_updateRow fun _ _ => Or.inl rfl
  | writeRun _ _ | load _ | failOutcome _ =>
    simp only [step] at hstep
    split at hstep <;> cases hstep
    exact hright
  | second =>
    cases hstep
    exact hright

/-- No due time of a schedule is launched twice in any run whose steps are
uncontested. -/
theorem launches_nodup_of_uncontested_steps (hfire : ∀ cron now upcoming,
      deployment.nextFireTime cron now = some upcoming → now < upcoming)
    (hpath : (machine deployment).Path (Uncontested deployment) events state) :
    state.launches.Nodup := by
  have hright := hpath.invariant
    (P := fun state => ClaimsRight state.phase state.rows state.launches) claimsRight_init
    fun hsource hclear hstep => claimsRight_step hfire hsource hclear hstep
  exact hright.nodup

/-- Two processes, one schedule every five microseconds and an edit of its selector. -/
def everyFive : Deployment Bool Bool Bool Bool Bool where
  settings := { schedulerLeaderTtl := 2 }
  instanceId process := process.toNat
  edit _ := { schedule := false, project := false, cron := false }
  nextFireTime _ now := some (now / 5 * 5 + 5)

theorem everyFive_after (cron : Bool) (now upcoming : ℕ)
    (hupcoming : everyFive.nextFireTime cron now = some upcoming) : now < upcoming := by
  cases hupcoming
  omega

/-- The steps of one tick that finds these rows. -/
def tick (process : Bool) (now : ℕ) (row : Row Bool Bool) :
    List (Event Bool Bool Bool Bool Bool) :=
  [.beginTick process now, .select process [(false, row)], .advance process]

/-- The row of the schedule once a run is recorded in it. -/
def recordedRow (upcoming run : ℕ) (status : RunStatus) : Row Bool Bool where
  project := false
  cron := false
  nextRunAt := some upcoming
  lastRunId := some run
  lastStatus := some (some status)

/-- A schedule is armed, fired by one process and then, after the lease has passed on,
by the other. -/
theorem launches_nodup_of_ticks_in_turn :
    ∃ events state, (machine everyFive).Path (Uncontested everyFive) events state ∧
      state.launches = [(false, 5), (false, 10)] ∧ state.launches.Nodup := by
  obtain ⟨state, hrun, hlaunches⟩ :
      ∃ state, (machine everyFive).runUnder (Uncontested everyFive) (machine everyFive).init
        ([Event.create false, .acquire false] ++ tick false 1 { project := false, cron := false } ++
          [Event.endTick false, .acquire false, .compare false, .refresh false] ++
          tick false 6 { project := false, cron := false, nextRunAt := some 5 } ++
          [Event.launch false true, .record false, .endTick false, .stop false true,
            .readSchedule true, .writeSchedule true, .acquire true] ++
          tick true 11 (recordedRow 10 0 .running) ++
          [Event.launch true true]) = some state ∧
        state.launches = [(false, 5), (false, 10)] :=
    Option.map_eq_some_iff.mp (by decide +kernel)
  have hpath := Machine.path_of_runUnder hrun
  exact ⟨_, state, hpath, hlaunches,
    launches_nodup_of_uncontested_steps everyFive_after hpath⟩

/-- A tick outlives the lease, and the next leader selects the same due time. -/
theorem not_launches_nodup_of_overlapping_ticks :
    ¬ ∀ (deployment : Deployment Bool Bool Bool Bool Bool) events state,
      (∀ cron now upcoming, deployment.nextFireTime cron now = some upcoming → now < upcoming) →
      (machine deployment).Path Machine.anyStep events state → state.launches.Nodup := by
  intro hclaim
  obtain ⟨state, hrun, hlaunches⟩ :
      ∃ state, (machine everyFive).runFrom (machine everyFive).init
        ([Event.create false, .acquire false] ++ tick false 1 { project := false, cron := false } ++
          [Event.endTick false, .acquire false, .compare false, .refresh false, .beginTick false 6,
            .select false [(false, { project := false, cron := false, nextRunAt := some 5 })]] ++
          [Event.second, .second, .acquire true] ++
          tick true 7 { project := false, cron := false, nextRunAt := some 5 } ++
          [Event.launch true true, .advance false, .launch false true]) = some state ∧
        state.launches = [(false, 5), (false, 5)] :=
    Option.map_eq_some_iff.mp (by decide +kernel)
  have hnodup := hclaim everyFive _ _ everyFive_after (Machine.path_of_runFrom hrun)
  rw [hlaunches] at hnodup
  simp at hnodup

end DbtCraft.Services.Scheduler

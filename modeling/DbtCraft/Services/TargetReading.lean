/-
# The target that dbt reads

`effective_target` looks for `--target`, `-t` and `--target=` in any token of an argv, while dbt
reads its options where they stand: a value may look like a flag, and a short option may have
its value attached or stand in a cluster. The two agree when the last token from which either
takes a target is one from which both do, and otherwise only on equal texts.
-/

import DbtCraft.Python.CommandLine
import DbtCraft.Services.State

namespace DbtCraft.Services.TargetReading

open DbtCraft.Math DbtCraft.Python DbtCraft.Python.CommandLine DbtCraft.Services.DbtArgv
open DbtCraft.Services.State

universe uα uβ uκ

/-! ## Two readings of a list -/

section

variable {α : Type uα} {β : Type uβ} (first second : α → Option β)

/-- One of two readings finds something. -/
def found (item : α) : Bool := (first item).isSome || (second item).isSome

/-- The last item in which one finds something is one in which both do. -/
def SharedLast (items : List α) : Prop :=
  ∀ item ∈ (items.filter (found first second)).getLast?,
    (first item).isSome = true ∧ (second item).isSome = true

/-- What is found in an item. -/
def Finds (item : α) (value : β) : Prop := value ∈ first item ∨ value ∈ second item

/-- Different items never have the same value, or the one that stands for none. -/
structure Telling (fallback : β) (items : List α) : Prop where
  apart : items.Pairwise fun own other =>
    ∀ {value}, Finds first second own value → ¬ Finds first second other value
  fallback : ∀ item ∈ items, ¬ Finds first second item fallback

variable {first second} {items : List α} {fallback : β}

theorem getLast?_filterMap_append {item : α} :
    ((items ++ [item]).filterMap first).getLast? =
      (first item).or (items.filterMap first).getLast? := by
  rw [List.filterMap_append]
  cases hfirst : first item with
  | none => rw [List.filterMap_cons_none hfirst, List.filterMap_nil, List.append_nil, Option.none_or]
  | some value =>
    rw [List.filterMap_cons_some hfirst, List.filterMap_nil, List.getLast?_concat, Option.some_or]

theorem sharedLast_append {item : α} : SharedLast first second (items ++ [item]) ↔
    if found first second item then (first item).isSome = true ∧ (second item).isSome = true
    else SharedLast first second items := by
  rw [SharedLast, List.filter_append]
  split
  next hfound =>
    rw [List.filter_cons_of_pos hfound, List.filter_nil, List.getLast?_concat]
    simp only [Option.mem_some_iff, forall_eq']
  next hnone =>
    rw [List.filter_cons_of_neg hnone, List.filter_nil, List.append_nil]
    rfl

/-- Readings that share their last item end with the same value. -/
theorem getLast?_filterMap_eq (hshared : SharedLast first second items)
    (hsame : ∀ item ∈ items, ∀ own ∈ first item, ∀ other ∈ second item, own = other) :
    (items.filterMap first).getLast? = (items.filterMap second).getLast? := by
  induction items using List.reverseRecOn with
  | nil => rfl
  | append_singleton items item ih =>
    rw [getLast?_filterMap_append, getLast?_filterMap_append]
    rw [sharedLast_append] at hshared
    split at hshared
    · obtain ⟨own, hown⟩ := Option.isSome_iff_exists.mp hshared.1
      obtain ⟨other, hother⟩ := Option.isSome_iff_exists.mp hshared.2
      rw [hown, hother, hsame item (by simp) own hown other hother]
      rfl
    next hnone =>
      simp only [found, Bool.or_eq_true, not_or, Option.not_isSome_iff_eq_none] at hnone
      rw [hnone.1, hnone.2, Option.none_or, Option.none_or]
      exact ih hshared fun other hother => hsame other (List.mem_append_left _ hother)

/-- A value that only one reading finds in the last item is not what the other ends with. -/
theorem ne_getLast?_of_last {item : α} {value : β}
    (hapart : ∀ other ∈ items, ∀ {found}, Finds first second other found →
      ¬ Finds first second item found)
    (hfallback : ¬ Finds first second item fallback) (hfinds : Finds first second item value)
    {reading : α → Option β} (hreading : reading = first ∨ reading = second) :
    (items.filterMap reading).getLast?.getD fallback ≠ value := by
  intro hsame
  cases hlast : (items.filterMap reading).getLast? with
  | none =>
    rw [hlast, Option.getD_none] at hsame
    exact hfallback (hsame ▸ hfinds)
  | some own =>
    rw [hlast, Option.getD_some] at hsame
    obtain ⟨other, hother, hown⟩ := List.mem_filterMap.mp (List.mem_of_getLast? hlast)
    refine hapart other hother ?_ (hsame ▸ hfinds)
    rcases hreading with hfirst | hsecond
    · exact .inl (hfirst ▸ hown)
    · exact .inr (hsecond ▸ hown)

/-- Where the last item is not shared, the readings end with different values. -/
theorem sharedLast_of_getLast? (htelling : Telling first second fallback items)
    (hsame : (items.filterMap first).getLast?.getD fallback =
      (items.filterMap second).getLast?.getD fallback) : SharedLast first second items := by
  induction items using List.reverseRecOn with
  | nil =>
    intro item hlast
    cases hlast
  | append_singleton items item ih =>
    rw [getLast?_filterMap_append, getLast?_filterMap_append] at hsame
    have hbefore := List.pairwise_append.mp htelling.apart
    have hapart : ∀ other ∈ items, ∀ {found}, Finds first second other found →
        ¬ Finds first second item found :=
      fun other hother _ => hbefore.2.2 other hother item (List.mem_singleton_self item)
    have hfallback : ¬ Finds first second item fallback := htelling.fallback item (by simp)
    rw [sharedLast_append]
    cases hfirst : first item with
    | none =>
      cases hsecond : second item with
      | none =>
        rw [hfirst, hsecond, Option.none_or, Option.none_or] at hsame
        rw [if_neg (by simp [found, hfirst, hsecond])]
        exact ih ⟨hbefore.1, fun other hother =>
          htelling.fallback other (List.mem_append_left _ hother)⟩ hsame
      | some value =>
        rw [hfirst, hsecond, Option.none_or, Option.some_or, Option.getD_some] at hsame
        exact absurd hsame (ne_getLast?_of_last hapart hfallback (.inr hsecond) (.inl rfl))
    | some value =>
      cases hsecond : second item with
      | none =>
        rw [hfirst, hsecond, Option.none_or, Option.some_or, Option.getD_some] at hsame
        exact absurd hsame.symm
          (ne_getLast?_of_last hapart hfallback (.inl hfirst) (.inr rfl))
      | some other =>
        rw [if_pos (by simp [found, hfirst])]
        exact ⟨rfl, rfl⟩

end

/-! ## The two readings of an argv -/

variable {κ : Type uκ}

/-- The target that `effective_target` finds in a token. -/
def seenAt (visit : Visit κ) : Option String :=
  if visit.token = "--target" ∨ visit.token = "-t" then visit.rest.head?
  else if startsWith visit.token "--target=" then some (String.ofList (visit.token.toList.drop 9))
  else none

/-- The `--target` and the `-t` of dbt are one option, which takes a value. -/
structure TargetOption (program : Program κ) (target : κ) : Prop where
  long : ∀ {path table name spelling}, program.table path = some table →
    table.long name = some spelling → (spelling.option = target ↔ name = "--target")
  short : ∀ {path table c spelling}, program.table path = some table →
    table.short c = some spelling → (spelling.option = target ↔ c = 't')
  takes : TakesOne program target

section

variable [DecidableEq κ] (program : Program κ) (target : κ)

/-- The last token in which `effective_target` or dbt finds a target is one in which both do. -/
def SharedTarget (argv : List String) : Prop :=
  SharedLast seenAt (textAt program target) (visits program {} argv.tail)

/-- The targets in different tokens have different names, none of which is empty or `dev`. -/
structure TellingTargets (argv : List String) : Prop where
  targets : Telling seenAt (textAt program target) defaultStateTarget
    (visits program {} argv.tail)
  named : ∀ visit ∈ visits program {} argv.tail, seenAt visit ≠ some ""

end

variable {program : Program κ} {target : κ} {argv tokens : List String}
  {state final : CommandLine.State κ} {found : Option String}

theorem lastTarget_cons {token : String} {rest : List String} {visit : Visit κ}
    (htoken : visit.token = token) (hrest : visit.rest = rest) :
    lastTarget found (token :: rest) = lastTarget ((seenAt visit).or found) rest := by
  subst htoken hrest
  rw [lastTarget, seenAt]
  by_cases hflag : visit.token = "--target" ∨ visit.token = "-t"
  · rw [if_pos hflag]
    cases hnext : visit.rest with
    | nil =>
      have hplain : startsWith visit.token "--target=" = false := by
        rcases hflag with hlong | hshort
        · rw [hlong]
          rfl
        · rw [hshort]
          rfl
      rw [if_neg (by simp), hplain]
      rfl
    | cons first others =>
      rw [if_pos ⟨hflag, by simp⟩]
      rfl
  · rw [if_neg fun hboth => hflag hboth.1, if_neg hflag]
    split
    · rfl
    · rfl

/-- `effective_target` reads the last token in which it finds a target. -/
theorem lastTarget_eq (hrun : (machine program).runFrom state tokens = some final) :
    lastTarget found tokens = ((visits program state tokens).filterMap seenAt).getLast?.or found := by
  induction tokens generalizing state found with
  | nil => rfl
  | cons token rest ih =>
    obtain ⟨next, hstep, hrest⟩ := Option.bind_eq_some_iff.mp hrun
    have hstep : step program state token = some next := hstep
    have hcons : lastTarget found (token :: rest) =
        lastTarget ((seenAt ⟨state, token, rest⟩).or found) rest := lastTarget_cons rfl rfl
    rw [hcons, ih hrest, visits, hstep]
    cases hseen : seenAt ⟨state, token, rest⟩ with
    | none => rw [List.filterMap_cons_none hseen, Option.none_or]
    | some text =>
      rw [List.filterMap_cons_some hseen, Option.some_or]
      cases hmore : (visits program next rest).filterMap seenAt with
      | nil => rfl
      | cons first others => rw [List.getLast?_cons_cons, List.getLast?_cons]; rfl

variable [DecidableEq κ]

/-- Where both find a target in a token, they find the same. -/
theorem seenAt_eq_textAt {visit : Visit κ} {own other : String}
    (hown : own ∈ seenAt visit) (hother : other ∈ textAt program target visit) : own = other := by
  obtain ⟨table, reading, spelling, value, -, hread, hlast, -, htext⟩ := textAt_eq_some hother
  unfold seenAt at hown
  split at hown
  next hflag =>
    have hnone : value = none := by
      rcases hflag with hlong | hshort
      · rw [hlong] at hread
        exact last_of_name (by decide) (by decide) hread hlast
      · rw [hshort] at hread
        exact last_of_pair (by decide) (by decide) hread hlast
    rw [hnone, Option.none_or] at htext
    exact Option.some.inj (hown.symm.trans htext)
  · split at hown
    next hequals =>
      obtain ⟨rest, hrest⟩ := startsWith_iff.mp hequals
      have htoken : visit.token.toList = "--target".toList ++ '=' :: rest := hrest
      rw [last_of_append (by decide) (by decide) htoken hread hlast, Option.some_or] at htext
      rw [htoken] at hown
      exact Option.some.inj (hown.symm.trans htext)
    · cases hown

/-! ## The target -/

theorem effectiveTarget_of_named (hnamed : lastTarget none argv ≠ some "") :
    effectiveTarget argv = (lastTarget none argv).getD defaultStateTarget := by
  unfold effectiveTarget
  split
  next text hlast =>
    rw [hlast] at hnamed
    rw [if_neg fun hempty => hnamed (congrArg some hempty), hlast, Option.getD_some]
  next hlast => rw [hlast, Option.getD_none]

theorem effectiveTarget_ne_empty : effectiveTarget argv ≠ "" := by
  unfold effectiveTarget
  split
  · split
    · decide
    next hnamed => exact hnamed
  · decide

/-- The name of the program and the subcommand are no flags. -/
theorem lastTarget_of_valid (hvalid : validateDbtArgv argv = .ok ()) :
    lastTarget none argv = lastTarget none argv.tail := by
  match argv with
  | [] => rfl
  | [_] => cases hvalid
  | program :: subcommand :: tokens =>
    rw [validateDbtArgv] at hvalid
    split at hvalid
    · cases hvalid
    next hprogram =>
      rw [not_not.mp hprogram]
      rfl

/-- **`effective_target` is the target that dbt reads** when both take it from the same token
and it is not empty; and only then, where the targets in the argv tell it. -/
theorem effectiveTarget_of_sharedTarget (hdbt : TargetOption program target)
    (hvalid : validateDbtArgv argv = .ok ()) (hparse : parse program argv.tail = some final) :
    (SharedTarget program target argv ∧ final.value target ≠ some "" →
      effectiveTarget argv = (final.value target).getD defaultStateTarget) ∧
    (TellingTargets program target argv →
      effectiveTarget argv = (final.value target).getD defaultStateTarget →
      SharedTarget program target argv ∧ final.value target ≠ some "") := by
  have hlast : lastTarget none argv.tail =
      ((visits program {} argv.tail).filterMap seenAt).getLast? :=
    (lastTarget_eq (Option.filter_eq_some_iff.mp hparse).1).trans Option.or_none
  have hvalue := value_of_parse hdbt.takes hparse
  apply And.intro
  · intro ⟨hshared, hnamed⟩
    have hsame : lastTarget none argv = final.value target := by
      rw [lastTarget_of_valid hvalid, hlast, hvalue]
      exact getLast?_filterMap_eq hshared fun visit _ own hown other hother =>
        seenAt_eq_textAt hown hother
    rw [effectiveTarget_of_named (hsame ▸ hnamed), hsame]
  · intro htelling hequal
    have hnamed : lastTarget none argv ≠ some "" := by
      rw [lastTarget_of_valid hvalid, hlast]
      intro hempty
      obtain ⟨visit, hvisit, hseen⟩ := List.mem_filterMap.mp (List.mem_of_getLast? hempty)
      exact htelling.named visit hvisit hseen
    apply And.intro
    · rw [effectiveTarget_of_named hnamed, lastTarget_of_valid hvalid, hlast, hvalue] at hequal
      exact sharedLast_of_getLast? htelling.targets hequal
    · intro hempty
      rw [hempty, Option.getD_some] at hequal
      exact effectiveTarget_ne_empty hequal

/-! ## Concrete argvs -/

/-- Long options of `dbt build`. -/
def sampleLong : List (String × Spelling String) :=
  [("--target", ⟨"target", .one⟩), ("--vars", ⟨"vars", .one⟩),
    ("--empty", ⟨"empty", .nothing "true"⟩), ("--no-empty", ⟨"empty", .nothing "false"⟩),
    ("--sample", ⟨"sample", .one⟩), ("--event-time-start", ⟨"event_time_start", .one⟩),
    ("--event-time-end", ⟨"event_time_end", .one⟩),
    ("--full-refresh", ⟨"full_refresh", .nothing "true"⟩), ("--selector", ⟨"selector", .one⟩),
    ("--select", ⟨"select", .many⟩), ("--models", ⟨"select", .many⟩),
    ("--model", ⟨"select", .many⟩), ("--exclude", ⟨"exclude", .many⟩)]

/-- Short options of `dbt build`. -/
def sampleShort : List (Char × Spelling String) :=
  [('t', ⟨"target", .one⟩), ('f', ⟨"full_refresh", .nothing "true"⟩), ('s', ⟨"select", .many⟩),
    ('m', ⟨"select", .many⟩)]

def sampleTable : Table String := Table.ofLists sampleLong sampleShort false (by decide)

/-- The group of the commands of dbt. -/
def sampleProgram : Program String where
  table path :=
    if path = [] then some (Table.ofLists [] [] true (by decide))
    else if path = ["build"] then some sampleTable
    else none

theorem mem_of_lookup {α : Type uα} {β : Type uβ} [BEq α] [LawfulBEq α] {entries : List (α × β)}
    {key : α} {value : β} (hfound : entries.lookup key = some value) : (key, value) ∈ entries := by
  obtain ⟨before, after, hentries, -⟩ := List.lookup_eq_some_iff.mp hfound
  rw [hentries]
  exact List.mem_append_right _ List.mem_cons_self

theorem table_sampleProgram {path : List String} {table : Table String}
    (htable : sampleProgram.table path = some table) :
    table = Table.ofLists [] [] true (by decide) ∨ table = sampleTable := by
  simp only [sampleProgram] at htable
  split at htable
  · exact .inl (Option.some.inj htable).symm
  · split at htable
    · exact .inr (Option.some.inj htable).symm
    · cases htable

theorem long_sampleTable {name : String} {spelling : Spelling String}
    (hlong : sampleTable.long name = some spelling) :
    (spelling.option = "target" ↔ name = "--target") ∧
      (spelling.option = "target" → spelling.takes = .one) := by
  have hall : ∀ entry ∈ sampleLong, (entry.2.option = "target" ↔ entry.1 = "--target") ∧
      (entry.2.option = "target" → entry.2.takes = .one) := by decide
  exact hall (name, spelling) (mem_of_lookup hlong)

theorem short_sampleTable {c : Char} {spelling : Spelling String}
    (hshort : sampleTable.short c = some spelling) :
    (spelling.option = "target" ↔ c = 't') ∧
      (spelling.option = "target" → spelling.takes = .one) := by
  have hall : ∀ entry ∈ sampleShort, (entry.2.option = "target" ↔ entry.1 = 't') ∧
      (entry.2.option = "target" → entry.2.takes = .one) := by decide
  exact hall (c, spelling) (mem_of_lookup hshort)

theorem targetOption_sampleProgram : TargetOption sampleProgram "target" where
  long htable hlong := by
    rcases table_sampleProgram htable with rfl | rfl
    · cases hlong
    · exact (long_sampleTable hlong).1
  short htable hshort := by
    rcases table_sampleProgram htable with rfl | rfl
    · cases hshort
    · exact (short_sampleTable hshort).1
  takes path table spelling htable hspells htarget := by
    rcases table_sampleProgram htable with rfl | rfl
    · rcases hspells with ⟨name, hlong⟩ | ⟨c, hshort⟩
      · cases hlong
      · cases hshort
    · rcases hspells with ⟨name, hlong⟩ | ⟨c, hshort⟩
      · exact (long_sampleTable hlong).2 htarget
      · exact (short_sampleTable hshort).2 htarget

/-- A value that looks like the flag, before the target. -/
theorem effectiveTarget_of_late_target :
    effectiveTarget ["dbt", "build", "--select", "-t", "stg", "-f", "--target=prod"] = "prod" := by
  have hvalid : validateDbtArgv
      ["dbt", "build", "--select", "-t", "stg", "-f", "--target=prod"] = .ok () := by rfl
  obtain ⟨final, hparse, hvalue⟩ : ∃ final, parse sampleProgram
      ["build", "--select", "-t", "stg", "-f", "--target=prod"] = some final ∧
      final.value "target" = some "prod" := ⟨_, rfl, rfl⟩
  have hboth := (effectiveTarget_of_sharedTarget targetOption_sampleProgram hvalid hparse).1
  refine (hboth ⟨?_, ?_⟩).trans ?_
  · intro visit hvisit
    cases hvisit
    exact ⟨rfl, rfl⟩
  · rw [hvalue]
    decide
  · rw [hvalue]
    rfl

/-- The target is attached to its flag. -/
theorem effectiveTarget_ne_of_attached : ¬ ∀ (program : Program String) (target : String)
    (argv : List String) (final : CommandLine.State String), TargetOption program target →
    validateDbtArgv argv = .ok () → parse program argv.tail = some final →
    effectiveTarget argv = (final.value target).getD defaultStateTarget := by
  intro hclaim
  obtain ⟨final, hparse, hvalue⟩ : ∃ final,
      parse sampleProgram ["build", "-tprod"] = some final ∧
      final.value "target" = some "prod" := ⟨_, rfl, rfl⟩
  have hsame := hclaim sampleProgram "target" ["dbt", "build", "-tprod"] final
    targetOption_sampleProgram rfl hparse
  rw [hvalue] at hsame
  exact absurd hsame (by decide)

end DbtCraft.Services.TargetReading

/-
# Exceptions

The exceptions of `app/exceptions.py` that the modelled code raises, with what they
are built from, and those of the language and its libraries.
-/

namespace DbtCraft

universe uα uε

/-- An exception. -/
inductive Raised
  | /-- `DbtOperationError`. -/
    dbtOperation (operation message : String)
  | projectNotFound (projectId : String)
  | fileNotFound (path : String)
  | invalidPath (path : String)
  | /-- `LakehouseError`. -/
    lakehouse (message : String)
  | /-- `IcebergPublishError`. -/
    icebergPublish (message : String)
  | /-- `HostNotAllowed`. -/
    hostNotAllowed (message : String)
  | valueError (message : String)
  | typeError
  | indexError
  | keyError
  | attributeError
  | overflowError
  | recursionError
  | osError
  | runtimeError
  | /-- The database cannot answer. -/
    database
  deriving DecidableEq

variable {α β : Type uα} {ε : Type uε} {first : Except ε α} {next : α → Except ε β}

/-- A sequence returns when both parts return. -/
theorem bind_eq_ok {result : β} :
    (first >>= next) = .ok result ↔ ∃ value, first = .ok value ∧ next value = .ok result := by
  cases first with
  | error raised => simp [bind, Except.bind]
  | ok value => simp [bind, Except.bind]

/-- A result that a function is applied to. -/
theorem map_eq_ok {f : α → β} {result : β} :
    first.map f = .ok result ↔ ∃ value, first = .ok value ∧ f value = result := by
  cases first with
  | error raised => simp [Except.map]
  | ok value => simp [Except.map]

/-- A check of every item returns when each item passes. -/
theorem forM_eq_ok {items : List α} {check : α → Except ε PUnit} :
    items.forM check = .ok () ↔ ∀ item ∈ items, check item = .ok () := by
  induction items with
  | nil => simp [pure, Except.pure]
  | cons item items ih =>
    rw [List.forM_eq_forM] at ih
    rw [List.forM_eq_forM, List.forM_cons, bind_eq_ok, List.forall_mem_cons, ← ih]
    exact ⟨fun ⟨(), hitem, hitems⟩ => ⟨hitem, hitems⟩, fun ⟨hitem, hitems⟩ => ⟨(), hitem, hitems⟩⟩

/-- A check of a row is come to when every item before it passes. -/
def Reached (check : α → Except ε PUnit) (items : List α) (item : α) : Prop :=
  ∃ before after, items = before ++ item :: after ∧ ∀ other ∈ before, check other = .ok ()

/-- A row of checks raises what the first item that does not pass raises. -/
theorem forM_eq_error {items : List α} {check : α → Except ε PUnit} {raised : ε} :
    items.forM check = .error raised ↔
      ∃ item, Reached check items item ∧ check item = .error raised := by
  induction items with
  | nil =>
    apply iff_of_false
    · intro hnone
      cases hnone
    · intro hfound
      obtain ⟨item, ⟨before, after, hitems, -⟩, -⟩ := hfound
      exact absurd hitems.symm (by simp)
  | cons first rest ih =>
    rw [List.forM_eq_forM] at ih ⊢
    rw [List.forM_cons]
    cases hfirst : check first with
    | error other =>
      apply Iff.intro
      · intro hraised
        exact ⟨first, ⟨[], rest, rfl, fun _ hnone => absurd hnone List.not_mem_nil⟩,
          hfirst.trans hraised⟩
      · intro hfound
        obtain ⟨item, ⟨before, after, hitems, hpass⟩, hraised⟩ := hfound
        cases before with
        | nil =>
          rw [← (List.cons.inj hitems).1, hfirst] at hraised
          exact hraised
        | cons other' before =>
          have hok := hpass other' List.mem_cons_self
          rw [← (List.cons.inj hitems).1, hfirst] at hok
          cases hok
    | ok done =>
      apply Iff.intro
      · intro hraised
        obtain ⟨item, ⟨before, after, hitems, hpass⟩, hitem⟩ := ih.mp hraised
        refine ⟨item, ⟨first :: before, after, by rw [hitems, List.cons_append], ?_⟩, hitem⟩
        intro other hother
        rcases List.mem_cons.mp hother with hsame | hmem
        · rw [hsame, hfirst]
        · exact hpass other hmem
      · intro hfound
        apply ih.mpr
        obtain ⟨item, ⟨before, after, hitems, hpass⟩, hraised⟩ := hfound
        cases before with
        | nil =>
          rw [← (List.cons.inj hitems).1, hfirst] at hraised
          cases hraised
        | cons other before =>
          exact ⟨item, ⟨before, after, (List.cons.inj hitems).2, fun other hother =>
            hpass other (List.mem_cons_of_mem _ hother)⟩, hraised⟩

end DbtCraft

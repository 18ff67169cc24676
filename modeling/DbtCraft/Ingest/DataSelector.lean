/-
# The suggested data selector

`suggest_data_selector` of `ingest/rest_source.py`, and how `probe_endpoint` follows what it
suggests. The selector joins the names on the way to the records with dots and is taken apart at
its dots again, so it leads back to them when the names have none; and an empty name cannot be
told from the top level.
-/

import DbtCraft.Exceptions
import DbtCraft.Python.Splitting
import DbtCraft.Python.Value

namespace DbtCraft.Ingest.DataSelector

open DbtCraft.Python

/-- `str(key)`. -/
def strKey : Value → String
  | .none => "None"
  | .bool value => if value then "True" else "False"
  | .int value => toString value
  | .float repr _ | .nonFinite repr => repr
  | .str text => text
  | .list _ | .dict _ => ""
  | .object _ str => str

/-- The first loop of `suggest_data_selector`. -/
def firstList : List (Value × Value) → Option (String × List Value)
  | [] => none
  | (key, .list records) :: _ => some (strKey key, records)
  | _ :: rest => firstList rest

/-- The second loop. -/
def firstNested : List (Value × Value) → Option (String × String × List Value)
  | [] => none
  | (key, .dict inner) :: rest =>
    match firstList inner with
    | some (innerKey, records) => some (strKey key, innerKey, records)
    | none => firstNested rest
  | _ :: rest => firstNested rest

/-- `suggest_data_selector`. -/
def suggestDataSelector : Value → String × ℕ
  | .list records => ("", records.length)
  | .dict items =>
    match firstList items with
    | some (key, records) => (key, records.length)
    | none =>
      match firstNested items with
      | some (key, innerKey, records) => (key ++ "." ++ innerKey, records.length)
      | none => ("", 0)
  | _ => ("", 0)

/-- `for part in …: sample = sample.get(part, [])`. -/
def follow : Value → List String → Except Raised Value
  | sample, [] => .ok sample
  | .dict items, part :: rest => follow ((Value.item items (.str part)).getD (.list [])) rest
  | _, _ :: _ => .error .attributeError

/-- `selector.split(".")`. -/
def parts (selector : String) : List String := (split '.' selector.toList).map String.ofList

/-- The sample of `probe_endpoint`; a blank selector stands for the top level. -/
def sampleAt (payload : Value) (selector : String) : Except Raised Value :=
  if selector = "" then .ok payload else follow payload (parts selector)

/-- A selector is suggested: the records are at the top level, or they were found below it. -/
def Suggests (payload : Value) : Prop :=
  (∃ records, payload = .list records) ∨ suggestDataSelector payload ≠ ("", 0)

/-- The suggested selector leads to as many records as were counted. -/
def Addresses (payload : Value) : Prop :=
  Suggests payload → ∃ records,
    sampleAt payload (suggestDataSelector payload).1 = .ok (.list records) ∧
      records.length = (suggestDataSelector payload).2

/-- The names on the way to the records, and the records. -/
def found : Value → Option (List String × List Value)
  | .list records => some ([], records)
  | .dict items =>
    match firstList items with
    | some (key, records) => some ([key], records)
    | none => (firstNested items).map fun way => ([way.1, way.2.1], way.2.2)
  | _ => none

/-- No name on the way has a dot, or is an empty one that stands alone. -/
def Undotted (payload : Value) : Prop :=
  ∀ way records, found payload = some (way, records) →
    (∀ name ∈ way, '.' ∉ name.toList) ∧ (way = [""] → records = [])

/-- The keys of a dict are different strings. -/
structure Keyed (items : List (Value × Value)) : Prop where
  strings : ∀ entry ∈ items, ∃ text, entry.1 = .str text
  apart : (items.map (·.1)).Nodup

/-- What `response.json()` gives. -/
def IsJson (payload : Value) : Prop := ∀ items, Value.Within (.dict items) payload → Keyed items

/-- No key of a dict is the beginning of another one, up to a dot. -/
def Unshadowed (payload : Value) : Prop :=
  ∀ items, Value.Within (.dict items) payload → ∀ own ∈ items, ∀ other ∈ items,
    ¬ (strKey own.1).toList ++ ['.'] <+: (strKey other.1).toList

variable {payload : Value} {items : List (Value × Value)} {key name : String}
  {records : List Value} {value : Value}

/-! ## Finding -/

theorem Keyed.tail {entry : Value × Value} (hkeyed : Keyed (entry :: items)) : Keyed items where
  strings other hother := hkeyed.strings other (List.mem_cons_of_mem entry hother)
  apart := (List.nodup_cons.mp hkeyed.apart).2

theorem sameKey_str {own other : String} :
    Value.sameKey (.str own) (.str other) = decide (own = other) := rfl

theorem item_cons_self {rest : List (Value × Value)} :
    Value.item ((.str name, value) :: rest) (.str name) = some value := by
  rw [Value.item, List.find?_cons_of_pos (by rw [sameKey_str, decide_eq_true rfl]), Option.map_some]

theorem item_cons_of_ne {rest : List (Value × Value)} {other : String} (hne : other ≠ name) :
    Value.item ((.str other, value) :: rest) (.str name) = Value.item rest (.str name) := by
  rw [Value.item, List.find?_cons_of_neg (by rw [sameKey_str, decide_eq_false hne]; exact Bool.false_ne_true),
    Value.item]

/-- An entry of a dict is what its key leads to. -/
theorem item_of_mem (hkeyed : Keyed items) (hmem : (Value.str name, value) ∈ items) :
    Value.item items (.str name) = some value := by
  induction items with
  | nil => cases hmem
  | cons entry rest ih =>
    rcases List.mem_cons.mp hmem with hfirst | hrest
    · rw [← hfirst]
      exact item_cons_self
    · obtain ⟨text, htext⟩ := hkeyed.strings entry List.mem_cons_self
      have hne : text ≠ name := by
        intro hsame
        apply (List.nodup_cons.mp hkeyed.apart).1
        show entry.1 ∈ rest.map (·.1)
        rw [htext, hsame]
        exact List.mem_map_of_mem hrest
      obtain ⟨own, kept⟩ := entry
      cases htext
      rw [item_cons_of_ne hne]
      exact ih hkeyed.tail hrest

theorem mem_of_firstList (hkeyed : Keyed items) (hfirst : firstList items = some (key, records)) :
    (Value.str key, Value.list records) ∈ items := by
  induction items with
  | nil => cases hfirst
  | cons entry rest ih =>
    obtain ⟨text, htext⟩ := hkeyed.strings entry List.mem_cons_self
    obtain ⟨own, kept⟩ := entry
    cases htext
    cases kept with
    | list own =>
      cases hfirst
      exact List.mem_cons_self
    | none | bool | int | float | nonFinite | str | dict | object =>
      exact List.mem_cons_of_mem _ (ih hkeyed.tail hfirst)

theorem mem_of_firstNested {innerKey : String} (hkeyed : Keyed items)
    (hnested : firstNested items = some (key, innerKey, records)) :
    ∃ inner, (Value.str key, Value.dict inner) ∈ items ∧ firstList inner = some (innerKey, records) := by
  induction items with
  | nil => cases hnested
  | cons entry rest ih =>
    have hlater : firstNested rest = some (key, innerKey, records) →
        ∃ inner, (Value.str key, Value.dict inner) ∈ entry :: rest ∧
          firstList inner = some (innerKey, records) := by
      intro hrest
      obtain ⟨inner, hinner, hlist⟩ := ih hkeyed.tail hrest
      exact ⟨inner, List.mem_cons_of_mem _ hinner, hlist⟩
    obtain ⟨text, htext⟩ := hkeyed.strings entry List.mem_cons_self
    obtain ⟨own, kept⟩ := entry
    cases htext
    cases kept with
    | dict inner =>
      rw [firstNested] at hnested
      split at hnested
      next found hfound =>
        cases hnested
        exact ⟨inner, List.mem_cons_self, hfound⟩
      · exact hlater hnested
    | none | bool | int | float | nonFinite | str | list | object => exact hlater hnested

/-! ## Following -/

theorem parts_of_undotted (hname : '.' ∉ name.toList) : parts name = [name] := by
  rw [parts, split_of_not_mem hname, List.map_cons, String.ofList_toList, List.map_nil]

theorem parts_append (hkey : '.' ∉ key.toList) : parts (key ++ "." ++ name) = key :: parts name := by
  have htext : (key ++ "." ++ name).toList = key.toList ++ '.' :: name.toList := by
    rw [String.toList_append, String.toList_append, List.append_assoc]
    rfl
  rw [parts, htext, split_append hkey, List.map_cons, String.ofList_toList, parts]

/-- A dotted name has a first part and others, also before more text. -/
theorem parts_of_dotted (hname : '.' ∈ name.toList) {text : String} {tail : List Char}
    (htext : text.toList = name.toList ++ tail) : ∃ first next more,
    parts text = first :: next :: more ∧ first.toList ++ ['.'] <+: name.toList := by
  obtain ⟨first, rest, hsplit, hfirst, -⟩ := exists_split_of_mem hname
  have hwhole : text.toList = first ++ '.' :: (rest ++ tail) := by
    rw [htext, hsplit, List.append_assoc, List.cons_append]
  cases hrest : split '.' (rest ++ tail) with
  | nil => exact absurd hrest split_ne_nil
  | cons next more =>
    refine ⟨String.ofList first, String.ofList next, more.map String.ofList, ?_, rest, ?_⟩
    · rw [parts, hwhole, split_append hfirst, hrest, List.map_cons, List.map_cons]
    · rw [hsplit, String.toList_ofList, List.append_assoc, List.singleton_append]

/-- Behind a missing name nothing can be looked up. -/
theorem follow_missing {part next : String} {rest : List String}
    (hmissing : Value.item items (.str part) = none) :
    follow (.dict items) (part :: next :: rest) = .error .attributeError := by
  rw [follow, hmissing]
  rfl

theorem follow_cons {part : String} {rest : List String}
    (hitem : Value.item items (.str part) = some value) :
    follow (.dict items) (part :: rest) = follow value rest := by
  rw [follow, hitem, Option.getD_some]

theorem item_eq_none (hkeyed : Keyed items) (hno : ∀ entry ∈ items, strKey entry.1 ≠ name) :
    Value.item items (.str name) = none := by
  rw [Value.item, Option.map_eq_none_iff, List.find?_eq_none]
  intro entry hentry hsame
  obtain ⟨text, htext⟩ := hkeyed.strings entry hentry
  apply hno entry hentry
  rw [htext] at hsame ⊢
  exact of_decide_eq_true hsame

/-- A dict has no key that is a part of a dotted one. -/
theorem item_of_dotted (hjson : IsJson payload) (hclear : Unshadowed payload)
    (hwithin : Value.Within (.dict items) payload) (hmem : (Value.str key, value) ∈ items)
    {first : String} (hfirst : first.toList ++ ['.'] <+: key.toList) :
    Value.item items (.str first) = none := by
  apply item_eq_none (hjson items hwithin)
  intro entry hentry hsame
  apply hclear items hwithin entry hentry _ hmem
  rw [hsame]
  exact hfirst

theorem append_ne_empty : key ++ "." ++ name ≠ "" := by
  intro hempty
  have hlist := congrArg String.toList hempty
  rw [String.toList_append, String.toList_append] at hlist
  exact List.cons_ne_nil _ _ (List.append_eq_nil_iff.mp (List.append_eq_nil_iff.mp hlist).1).2

/-! ## The suggestion -/

/-- Records below one name. -/
theorem addresses_of_firstList (hjson : IsJson (.dict items))
    (hfirst : firstList items = some (key, records)) :
    (('.' ∉ key.toList ∧ (key = "" → records = [])) → Addresses (.dict items)) ∧
      (Unshadowed (.dict items) → Addresses (.dict items) →
        '.' ∉ key.toList ∧ (key = "" → records = [])) := by
  have hsuggest : suggestDataSelector (.dict items) = (key, records.length) := by
    rw [suggestDataSelector, hfirst]
  have hmem := mem_of_firstList (hjson items .self) hfirst
  apply And.intro
  · intro ⟨hdot, hempty⟩ hsuggests
    rw [hsuggest]
    have hkey : key ≠ "" := by
      intro hblank
      rcases hsuggests with ⟨own, hlist⟩ | hfound
      · cases hlist
      · rw [hsuggest, hblank, hempty hblank] at hfound
        exact hfound rfl
    refine ⟨records, ?_, rfl⟩
    rw [sampleAt, if_neg hkey, parts_of_undotted hdot, follow_cons (item_of_mem (hjson items .self) hmem)]
    rfl
  · intro hclear haddresses
    have hreach : ¬ (key = "" ∧ records = []) → ∃ own,
        sampleAt (.dict items) key = .ok (.list own) ∧ own.length = records.length := by
      intro hfound
      have hreached := haddresses (.inr fun hnone => ?_)
      · rw [hsuggest] at hreached
        exact hreached
      · rw [hsuggest] at hnone
        obtain ⟨hkey, hlength⟩ := Prod.mk.inj hnone
        exact hfound ⟨hkey, List.eq_nil_of_length_eq_zero hlength⟩
    apply And.intro
    · intro hdot
      obtain ⟨own, hsample, -⟩ := hreach fun hblank => by simp [hblank.1] at hdot
      obtain ⟨first, next, more, hparts, hprefix⟩ :=
        parts_of_dotted hdot (List.append_nil _).symm
      have hkey : key ≠ "" := fun hblank => by simp [hblank] at hdot
      rw [sampleAt, if_neg hkey, hparts,
        follow_missing (item_of_dotted hjson hclear .self hmem hprefix)] at hsample
      cases hsample
    · intro hblank
      by_contra hrecords
      obtain ⟨own, hsample, -⟩ := hreach fun hboth => hrecords hboth.2
      rw [sampleAt, if_pos hblank] at hsample
      cases hsample

/-- Records below two names. -/
theorem addresses_of_firstNested {innerKey : String} (hjson : IsJson (.dict items))
    (hfirst : firstList items = none) (hnested : firstNested items = some (key, innerKey, records)) :
    (('.' ∉ key.toList ∧ '.' ∉ innerKey.toList) → Addresses (.dict items)) ∧
      (Unshadowed (.dict items) → Addresses (.dict items) →
        '.' ∉ key.toList ∧ '.' ∉ innerKey.toList) := by
  have hsuggest : suggestDataSelector (.dict items) = (key ++ "." ++ innerKey, records.length) := by
    rw [suggestDataSelector, hfirst, hnested]
  obtain ⟨inner, hmem, hlist⟩ := mem_of_firstNested (hjson items .self) hnested
  have hwithin : Value.Within (.dict inner) (.dict items) := .dictItem hmem .self
  have hinner := mem_of_firstList (hjson inner hwithin) hlist
  have hitem := item_of_mem (hjson items .self) hmem
  apply And.intro
  · intro ⟨hdot, hdots⟩ _
    rw [hsuggest]
    refine ⟨records, ?_, rfl⟩
    rw [sampleAt, if_neg append_ne_empty, parts_append hdot, parts_of_undotted hdots,
      follow_cons hitem, follow_cons (item_of_mem (hjson inner hwithin) hinner)]
    rfl
  · intro hclear haddresses
    obtain ⟨own, hsample, -⟩ := haddresses (.inr fun hnone => by
      rw [hsuggest] at hnone
      exact append_ne_empty (Prod.mk.inj hnone).1)
    rw [hsuggest, sampleAt, if_neg append_ne_empty] at hsample
    by_cases hdot : '.' ∈ key.toList
    · have htext : (key ++ "." ++ innerKey).toList = key.toList ++ '.' :: innerKey.toList := by
        rw [String.toList_append, String.toList_append, List.append_assoc]
        rfl
      obtain ⟨first, next, more, hparts, hprefix⟩ := parts_of_dotted hdot htext
      rw [hparts, follow_missing (item_of_dotted hjson hclear .self hmem hprefix)] at hsample
      cases hsample
    · refine ⟨hdot, fun hdots => ?_⟩
      obtain ⟨first, next, more, hparts, hprefix⟩ := parts_of_dotted hdots (List.append_nil _).symm
      rw [parts_append hdot, follow_cons hitem, hparts,
        follow_missing (item_of_dotted hjson hclear hwithin hinner hprefix)] at hsample
      cases hsample

theorem undotted_iff {way : List String} (hfound : found payload = some (way, records)) :
    Undotted payload ↔ (∀ name ∈ way, '.' ∉ name.toList) ∧ (way = [""] → records = []) := by
  apply Iff.intro
  · intro hundotted
    exact hundotted way records hfound
  · intro hclear other others hother
    rw [hfound] at hother
    cases hother
    exact hclear

theorem undotted_of_none (hnone : found payload = none) : Undotted payload := by
  intro way records hfound
  rw [hnone] at hfound
  cases hfound

/-- **The suggested selector addresses the records it counted** when no name on the way to them
has a dot or is an empty one that stands alone; and only then, unless another key of the same
dict is a part of such a name. -/
theorem addresses_of_undotted (hjson : IsJson payload) :
    (Undotted payload → Addresses payload) ∧
      (Unshadowed payload → Addresses payload → Undotted payload) := by
  cases payload with
  | list records =>
    refine ⟨fun _ _ => ⟨records, rfl, rfl⟩, fun _ _ => (undotted_iff rfl).mpr ⟨?_, ?_⟩⟩
    · intro name hname
      cases hname
    · intro hway
      cases hway
  | dict items =>
    cases hfirst : firstList items with
    | some way =>
      obtain ⟨key, records⟩ := way
      have hfound : found (.dict items) = some ([key], records) := by rw [found, hfirst]
      have hboth := addresses_of_firstList hjson hfirst
      rw [undotted_iff hfound]
      simpa using hboth
    | none =>
      cases hnested : firstNested items with
      | some way =>
        obtain ⟨key, innerKey, records⟩ := way
        have hfound : found (.dict items) = some ([key, innerKey], records) := by
          rw [found, hfirst, hnested]
          rfl
        have hboth := addresses_of_firstNested hjson hfirst hnested
        rw [undotted_iff hfound]
        simpa using hboth
      | none =>
        have hfound : found (.dict items) = none := by
          rw [found, hfirst, hnested]
          rfl
        refine ⟨fun _ hsuggests => ?_, fun _ _ => undotted_of_none hfound⟩
        rcases hsuggests with ⟨records, hlist⟩ | hsome
        · cases hlist
        · rw [suggestDataSelector, hfirst, hnested] at hsome
          exact absurd rfl hsome
  | none | bool | int | float | nonFinite | str | object =>
    refine ⟨fun _ hsuggests => ?_, fun _ _ => undotted_of_none rfl⟩
    rcases hsuggests with ⟨records, hlist⟩ | hsome
    · cases hlist
    · exact absurd rfl hsome

/-- Records two names deep. -/
def samplePayload : Value :=
  .dict [(.str "result", .dict [(.str "items", .list [.int 1, .int 2])]), (.str "total", .int 2)]

theorem not_within_scalar {items : List (Value × Value)} {count : ℤ} :
    ¬ Value.Within (.dict items) (.int count) := by
  intro hwithin
  cases hwithin

/-- Dicts in a list of numbers. -/
theorem not_within_list {items : List (Value × Value)} {counts : List ℤ} :
    ¬ Value.Within (.dict items) (.list (counts.map .int)) := by
  intro hwithin
  cases hwithin with
  | listItem hchild hwithin =>
    obtain ⟨count, -, hcount⟩ := List.mem_map.mp hchild
    exact not_within_scalar (hcount ▸ hwithin)

theorem isJson_samplePayload : IsJson samplePayload := by
  intro items hwithin
  cases hwithin with
  | self => exact ⟨by simp, by simp⟩
  | dictItem hitem hwithin =>
    simp only [List.mem_cons, List.not_mem_nil, or_false] at hitem
    rcases hitem with rfl | rfl
    · cases hwithin with
      | self => exact ⟨by simp, by simp⟩
      | dictItem hitem hwithin =>
        simp only [List.mem_cons, List.not_mem_nil, or_false] at hitem
        subst hitem
        have hrecords : Value.Within (.dict items) (.list ([1, 2].map .int)) := hwithin
        exact absurd hrecords not_within_list
    · exact absurd hwithin not_within_scalar

theorem addresses_samplePayload : Addresses samplePayload := by
  apply (addresses_of_undotted isJson_samplePayload).1
  intro way records hfound
  cases hfound
  exact ⟨by decide, by decide⟩

/-- A name with a dot. -/
theorem not_addresses_dotted : ¬ ∀ payload : Value, IsJson payload → Addresses payload := by
  intro hclaim
  have hjson : IsJson (.dict [(.str "data.items", .list ([1].map .int))]) := by
    intro items hwithin
    cases hwithin with
    | self => exact ⟨by simp, by simp⟩
    | dictItem hitem hwithin =>
      rw [List.mem_singleton.mp hitem] at hwithin
      exact absurd hwithin not_within_list
  obtain ⟨records, hsample, -⟩ := hclaim _ hjson (.inr (by decide))
  cases hsample

end DbtCraft.Ingest.DataSelector

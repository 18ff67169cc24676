/-
# Names in prepared statements

How Jinja reads what `prepare_sql` and `compose_board` of `app/services/boards.py` write. The
names of a reference go out of Jinja's literals into JSON and are read by Jinja again, where
the two escapes of a character outside the basic plane are two code points. A template is taken
with its variables and filters filled in, as characters and references.
-/

import DbtCraft.Python.Jinja
import DbtCraft.Services.BoardComposition
import DbtCraft.Services.BoardLiterals

namespace DbtCraft.Services.BoardSql

open DbtCraft.Python DbtCraft.Python.Jinja DbtCraft.Sql
open DbtCraft.Python.Json (codes codes_of_lt)
open DbtCraft.Python.JsonText (codesOf)

/-- The functions whose calls stay in a prepared statement. -/
def boardFns : List String := ["ref", "source", "adapter.quote"]

/-- A reference: its function and its names. -/
abbrev Ref := String × List String

/-- The reference that a node is. -/
def refOf : Node → Option Ref
  | .call node args true =>
    match functionName node with
    | some fn => if fn ∈ boardFns then (literalNames args).map (fn, ·) else none
    | none => none
  | _ => none

/-- A node with its variables filled in. -/
def filledNode (engine : Engine) (bindings : Bindings) (node : Node) : List (Item Ref) :=
  match refOf node with
  | some ref => [.hole ref]
  | none =>
    match part engine bindings [] node with
    | .ok (text, _) => text.toList.map .char
    | .error _ => []

/-- A template with its variables filled in. -/
def filled (engine : Engine) (bindings : Bindings) (sql : String) : List (Item Ref) :=
  (templateNodes engine sql).flatMap (filledNode engine bindings)

/-- A reference is the call of its function with exactly its names. -/
def original : Item Ref → Item Call
  | .char c => .char c
  | .hole ref => .hole ⟨ref.1, ref.2.map fun name => codesOf name.toList⟩

/-- All characters are in the basic plane. -/
def inBasicPlane (name : String) : Bool := name.toList.all fun c => c.toNat < 0x10000

/-! ## What is left undisturbed -/

/-- The characters up to the next reference, and the first one of its marker. -/
def ahead : List (Item Ref) → List Char
  | [] => []
  | .char c :: rest => c :: ahead rest
  | .hole _ :: _ => ['_']

/-- A character begins a tag together with what follows it. -/
def beginsTag (c : Char) : List (Item Ref) → Bool
  | [] => false
  | .char d :: _ => opens [c, d]
  | .hole _ :: _ => opens [c, '\x7b']

/-- The text between references spells no tag and has no carriage returns, no reference ends in
the middle of a word, and where markers are looked for the text spells none. -/
def settled (engine : Engine) (looked : Bool) : List (Item Ref) → Bool
  | [] => true
  | .char c :: rest =>
    (!looked || (matchRef engine (c :: ahead rest)).isNone) && !beginsTag c rest && c ≠ '\r' &&
      settled engine looked rest
  | .hole _ :: rest => !(ahead rest).head?.any engine.isWord && settled engine looked rest

/-- The text keeps apart what the markers and Jinja's lexer tell by its characters. -/
structure Undisturbed (engine : Engine) (items : List (Item Ref)) : Prop where
  settled : settled engine (holes items ≠ []) items = true
  /-- Jinja drops a newline at the end. -/
  final : items.getLast? ≠ some (.char '\n')

instance (engine : Engine) (items : List (Item Ref)) : Decidable (Undisturbed engine items) :=
  decidable_of_iff (settled engine (holes items ≠ []) items = true ∧ items.getLast? ≠ some (.char '\n'))
    ⟨fun held => ⟨held.1, held.2⟩, fun held => ⟨held.settled, held.final⟩⟩

/-- What `re` knows about digits and words. -/
structure KnowsDigits (engine : Engine) : Prop where
  digit_ascii : ∀ c, c.isDigit = true → engine.digit c = some (c.toNat - '0'.toNat)
  word_of_digit : ∀ c value, engine.digit c = some value → engine.isWord c = true
  underscore_word : engine.isWord '_' = true
  underscore_not_digit : engine.digit '_' = none

variable {engine : Engine} {bindings : Bindings} {refs : List String} {items rest : List (Item Ref)}
  {looked : Bool}

/-! ## Parts -/

/-- The statement before its markers are replaced, the first of them with this number. -/
def marked : ℕ → List (Item Ref) → List Char
  | _, [] => []
  | number, .char c :: rest => c :: marked number rest
  | number, .hole _ :: rest =>
    refMarker.toList ++ ((toString number).toList ++ marked (number + 1) rest)

/-- An item of the prepared statement. -/
def writtenItem : Item Ref → List Char
  | .char c => [c]
  | .hole ref => writeCall ref.1 ref.2

/-- The prepared statement. -/
def written (items : List (Item Ref)) : List Char := items.flatMap writtenItem

/-- The references of the items, as `prepare_sql` keeps them. -/
def referencesOf (items : List (Item Ref)) : List String :=
  (holes items).map fun ref => reference ref.1 ref.2

/-- The function is known and has names. -/
def Ref.Sound (ref : Ref) : Prop := ref.1 ∈ boardFns ∧ ref.2 ≠ []

@[simp]
theorem written_nil : written [] = [] := rfl

@[simp]
theorem written_char (c : Char) : written (.char c :: rest) = c :: written rest := rfl

@[simp]
theorem written_hole (ref : Ref) :
    written (.hole ref :: rest) = writeCall ref.1 ref.2 ++ written rest := rfl

theorem marked_chars (number : ℕ) (chars : List Char) (rest : List (Item Ref)) :
    marked number (chars.map .char ++ rest) = chars ++ marked number rest := by
  induction chars with
  | nil => rfl
  | cons c chars ih => exact congrArg (c :: ·) ih

theorem toList_reference (fn : String) (args : List String) :
    (reference fn args).toList = writeCall fn args := by
  simp [reference, writeCall, writeArgs, String.toList_append, List.map_map, Function.comp_def]

theorem refOf_eq_some {node : Node} {ref : Ref} (href : refOf node = some ref) :
    ∃ callee args, node = .call callee args true ∧ functionName callee = some ref.1 ∧
      ref.1 ∈ boardFns ∧ literalNames args = some ref.2 := by
  unfold refOf at href
  split at href
  next callee args =>
    split at href
    next fn hfn =>
      split at href
      next hmem =>
        obtain ⟨names, hnames, hsame⟩ := Option.map_eq_some_iff.mp href
        rw [← hsame]
        exact ⟨callee, args, rfl, hfn, hmem, hnames⟩
      · cases href
    · cases href
  · cases href

/-- A reference is a marker, where its names are as many as its function takes. -/
theorem part_of_refOf {node : Node} {ref : Ref} (href : refOf node = some ref) {text : String}
    {found : List String} (hpart : part engine bindings refs node = .ok (text, found)) :
    ref.Sound ∧ text = refMarker ++ toString refs.length ∧
      found = refs ++ [reference ref.1 ref.2] := by
  obtain ⟨callee, args, hnode, hfn, hmem, hnames⟩ := refOf_eq_some href
  rw [hnode] at hpart
  have hknown : ref.1 ∈ ["ref", "source", "adapter.quote"] := hmem
  simp only [part, expression, callText, hfn, if_pos hknown, hnames, if_true] at hpart
  split at hpart
  next hcount =>
    obtain ⟨htext, hfound⟩ := Prod.mk.inj (Except.ok.inj hpart)
    refine ⟨⟨hmem, ?_⟩, htext.symm, hfound.symm⟩
    intro hnone
    rw [hnone] at hcount
    unfold argumentCounts at hcount
    split_ifs at hcount <;> simp at hcount
  · cases hpart

/-- Any other node does not see the references before it. -/
theorem part_of_refOf_none {node : Node} (href : refOf node = none) :
    part engine bindings refs node =
      (part engine bindings [] node).map fun found => (found.1, refs) := by
  have hmap (outcome : Except Raised String) :
      (outcome.map fun text => (text, refs)) =
        (outcome.map fun text => (text, ([] : List String))).map fun found => (found.1, refs) := by
    cases outcome <;> rfl
  cases node with
  | data text => rfl
  | const value => rfl
  | getattr node attr => rfl
  | other => rfl
  | name name =>
    simp only [part, expression]
    cases bindings.get name with
    | none => rfl
    | some value => exact hmap _
  | call callee args plain =>
    cases plain with
    | false => rfl
    | true =>
      simp only [part, expression, if_true, callText]
      cases hfn : functionName callee with
      | none => rfl
      | some fn =>
        simp only
        split
        next hknown =>
          have hmem : fn ∈ boardFns := hknown
          simp only [refOf, hfn, if_pos hmem, Option.map_eq_none_iff] at href
          rw [href]
          rfl
        · split
          · split
            · split
              · split
                · exact hmap _
                · rfl
              · rfl
            · rfl
          · rfl

/-- `joinParts` marks the references of the filled template, and keeps them in order. -/
theorem joinParts_filled {nodes : List Node} {text : String} {all : List String}
    (hjoin : joinParts engine bindings refs nodes = .ok (text, all)) :
    text.toList = marked refs.length (nodes.flatMap (filledNode engine bindings)) ∧
      all = refs ++ referencesOf (nodes.flatMap (filledNode engine bindings)) ∧
      ∀ ref ∈ holes (nodes.flatMap (filledNode engine bindings)), ref.Sound := by
  induction nodes generalizing refs text all with
  | nil =>
    cases hjoin
    exact ⟨rfl, (List.append_nil _).symm, nofun⟩
  | cons node rest ih =>
    simp only [joinParts] at hjoin
    obtain ⟨⟨first, found⟩, hpart, hrest⟩ := bind_eq_ok.mp hjoin
    obtain ⟨⟨others, all'⟩, hothers, hresult⟩ := bind_eq_ok.mp hrest
    obtain ⟨htext, hall⟩ := Prod.mk.inj (Except.ok.inj hresult)
    obtain ⟨htail, hkept, hsound⟩ := ih hothers
    rw [← htext, ← hall, String.toList_append, htail, hkept, List.flatMap_cons]
    cases href : refOf node with
    | some ref =>
      obtain ⟨hknown, hfirst, hfound⟩ := part_of_refOf href hpart
      have hfilled : filledNode engine bindings node = [.hole ref] := by
        rw [filledNode, href]
      rw [hfirst, hfound, hfilled, List.length_append, String.toList_append]
      refine ⟨?_, List.append_assoc _ _ _, ?_⟩
      · exact List.append_assoc _ _ _
      · intro ref' href'
        rcases List.mem_cons.mp (show ref' ∈ ref :: _ from href') with hsame | hmem
        · exact hsame ▸ hknown
        · exact hsound ref' hmem
    | none =>
      rw [part_of_refOf_none href] at hpart
      obtain ⟨⟨first', found'⟩, hplain, hsame⟩ := map_eq_ok.mp hpart
      obtain ⟨hfirst, hfound⟩ := Prod.mk.inj hsame
      have hfilled : filledNode engine bindings node = first.toList.map .char := by
        rw [filledNode, href, hplain, ← hfirst]
      have hholes (others : List (Item Ref)) :
          holes (first.toList.map .char ++ others) = holes others := by
        rw [holes_append, holes_chars, List.nil_append]
      rw [← hfound, hfilled, marked_chars, referencesOf, referencesOf, hholes]
      exact ⟨rfl, rfl, hsound⟩

/-! ## Markers -/

theorem after_append (start rest : List Char) : after start (start ++ rest) = some rest := by
  induction start with
  | nil => rfl
  | cons c start ih =>
    rw [List.cons_append, after, if_pos rfl]
    exact ih

/-- Digits are read up to what is no word. -/
theorem leadingDigits_append (hknown : KnowsDigits engine) {digits rest : List Char}
    (hdigits : ∀ c ∈ digits, c.isDigit = true) (hrest : rest.head?.any engine.isWord = false) :
    leadingDigits engine (digits ++ rest) = digits.map fun c => c.toNat - '0'.toNat := by
  induction digits with
  | nil =>
    cases rest with
    | nil => rfl
    | cons c rest =>
      have hdigit : engine.digit c = none := by
        rw [Option.eq_none_iff_forall_ne_some]
        intro value hvalue
        exact absurd ((hknown.word_of_digit c value hvalue).symm.trans hrest) (by decide)
      simp only [List.nil_append, leadingDigits, hdigit, List.map_nil]
  | cons c digits ih =>
    have htail := ih fun d hd => hdigits d (List.mem_cons_of_mem _ hd)
    simp only [List.cons_append, leadingDigits, hknown.digit_ascii c (hdigits c List.mem_cons_self),
      htail, List.map_cons]

theorem isDigit_toString {number : ℕ} {c : Char} (hc : c ∈ (toString number).toList) :
    c.isDigit = true := by
  rw [Nat.toString_eq_repr, Nat.repr, String.toList_ofList] at hc
  exact Nat.isDigit_of_mem_toDigits (by decide) (by decide) hc

/-- A marker that is no part of a word is found with its number. -/
theorem matchRef_marker (hknown : KnowsDigits engine) (number : ℕ) {rest : List Char}
    (hrest : rest.head?.any engine.isWord = false) :
    matchRef engine (refMarker.toList ++ ((toString number).toList ++ rest)) =
      some (number, refMarker.toList.length + (toString number).toList.length) := by
  have hdigits : leadingDigits engine ((toString number).toList ++ rest) =
      (toString number).toList.map fun c => c.toNat - '0'.toNat :=
    leadingDigits_append hknown (fun _ hc => isDigit_toString hc) hrest
  have hne : (toString number).toList ≠ [] := by
    rw [Nat.toString_eq_repr, Nat.repr, String.toList_ofList]
    exact Nat.toDigits_ne_nil
  have hvalue : (toString number).toList.foldl
      (fun total c => 10 * total + (c.toNat - '0'.toNat)) 0 = number := by
    rw [← Nat.ofDigitChars_eq_foldl, Nat.toString_eq_repr, Nat.repr, String.toList_ofList]
    exact Nat.ofDigitChars_ten_toDigits
  unfold matchRef
  rw [after_append]
  simp only [hdigits, List.length_map, List.drop_left, hrest, List.map_eq_nil_iff, hne,
    List.foldl_map, hvalue, Bool.false_eq_true, or_self, if_false]

theorem substituteRefs_skip (skipped rest : List Char) :
    substituteRefs engine refs skipped.length (skipped ++ rest) =
      substituteRefs engine refs 0 rest := by
  induction skipped with
  | nil => rfl
  | cons c skipped ih => exact ih

theorem leadingDigits_underscore (hknown : KnowsDigits engine) (text rest : List Char) :
    leadingDigits engine (text ++ '_' :: rest) = leadingDigits engine text := by
  induction text with
  | nil => simp only [List.nil_append, leadingDigits, hknown.underscore_not_digit]
  | cons c text ih =>
    rw [List.cons_append, leadingDigits, leadingDigits, ih]

/-- A match does not reach behind the first character of a marker. -/
theorem matchRef_underscore (hknown : KnowsDigits engine) {text : List Char} (htext : text ≠ [])
    (hnone : matchRef engine (text ++ ['_']) = none) (more : List Char) :
    matchRef engine (text ++ '_' :: '_' :: more) = none := by
  unfold matchRef
  cases hafter : after refMarker.toList (text ++ '_' :: '_' :: more) with
  | none => rfl
  | some rest =>
    have hsplit := after_eq_some hafter
    have hdigits (others : List Char) : leadingDigits engine ('_' :: others) = [] :=
      leadingDigits_underscore hknown [] others
    rcases List.append_eq_append_iff.mp hsplit with ⟨later, hmarker, hrest⟩ | ⟨left, hleft, hrest⟩
    · -- The marker ends in the first two underscores, where no number begins.
      cases later with
      | nil =>
        rw [← show '_' :: '_' :: more = rest from hrest]
        simp only [hdigits, true_or, if_true]
      | cons c later =>
        obtain ⟨hc, hmore⟩ := List.cons.inj hrest
        cases later with
        | nil =>
          rw [← show '_' :: more = rest from hmore]
          simp only [hdigits, true_or, if_true]
        | cons d later =>
          have hd := (List.cons.inj hmore).1
          have htwice : ['_', '_'] <:+: refMarker.toList.tail := by
            rw [hmarker, ← hc, ← hd, List.tail_append_of_ne_nil htext]
            exact ⟨text.tail, later, by simp⟩
          exact absurd htwice (by decide)
    · -- The text holds the marker, and what follows its number is an underscore.
      have hhead (others : List Char) :
          ((left ++ '_' :: others).drop (leadingDigits engine left).length).head? =
            ((left.drop (leadingDigits engine left).length) ++ ['_']).head? := by
        rw [List.drop_append_of_le_length (length_leadingDigits_le left), List.head?_append,
          List.head?_append]
        rfl
      rw [hleft, List.append_assoc, matchRef, after_append] at hnone
      simp only [hrest, leadingDigits_underscore hknown, hhead] at hnone ⊢
      exact hnone

/-- The prepared text up to the next marker, with its first two characters. -/
theorem marked_eq (number : ℕ) (items : List (Item Ref)) :
    marked number items = ahead items ∨ ∃ chars more,
      ahead items = chars ++ ['_'] ∧ marked number items = chars ++ '_' :: '_' :: more := by
  induction items with
  | nil => exact Or.inl rfl
  | cons item rest ih =>
    cases item with
    | hole ref => exact Or.inr ⟨[], _, rfl, rfl⟩
    | char c =>
      rcases ih with hsame | ⟨chars, more, hahead, hmarked⟩
      · exact Or.inl (congrArg (c :: ·) hsame)
      · exact Or.inr ⟨c :: chars, more, congrArg (c :: ·) hahead, congrArg (c :: ·) hmarked⟩

theorem head?_marked (number : ℕ) (items : List (Item Ref)) :
    (marked number items).head? = (ahead items).head? := by
  cases items with
  | nil => rfl
  | cons item rest => cases item <;> rfl

theorem matchRef_marked (hknown : KnowsDigits engine) {c : Char}
    (hnone : matchRef engine (c :: ahead rest) = none) (number : ℕ) :
    matchRef engine (c :: marked number rest) = none := by
  rcases marked_eq number rest with hsame | ⟨chars, more, hahead, hmarked⟩
  · rw [hsame]
    exact hnone
  · rw [hahead] at hnone
    rw [hmarked]
    exact matchRef_underscore hknown (List.cons_ne_nil c chars) hnone more

theorem settled_char {c : Char} (hsettled : settled engine looked (.char c :: rest) = true) :
    (looked = true → matchRef engine (c :: ahead rest) = none) ∧ beginsTag c rest = false ∧
      c ≠ '\r' ∧ settled engine looked rest = true := by
  cases looked <;> simpa [settled, and_assoc] using hsettled

theorem settled_hole {ref : Ref} (hsettled : settled engine looked (.hole ref :: rest) = true) :
    (ahead rest).head?.any engine.isWord = false ∧ settled engine looked rest = true := by
  simpa [settled] using hsettled

/-- In an undisturbed text the substitution replaces each marker by its own reference. -/
theorem substituteRefs_marked (hknown : KnowsDigits engine) {before : List String}
    {result : List Char} (hsettled : settled engine true items = true)
    (hresult : substituteRefs engine (before ++ referencesOf items) 0
      (marked before.length items) = .ok result) : result = written items := by
  induction items generalizing before result with
  | nil =>
    cases hresult
    rfl
  | cons item rest ih =>
    cases item with
    | char c =>
      obtain ⟨hnone, -, -, hrest⟩ := settled_char hsettled
      rw [marked, substituteRefs_none (matchRef_marked hknown (hnone rfl) _)] at hresult
      obtain ⟨others, hothers, hsame⟩ := map_eq_ok.mp hresult
      rw [← hsame, ih hrest hothers, written_char]
    | hole ref =>
      obtain ⟨hboundary, hrest⟩ := settled_hole hsettled
      rw [← head?_marked (before.length + 1)] at hboundary
      have hmatch := matchRef_marker hknown before.length hboundary
      have hmarker : refMarker.toList = '_' :: refMarker.toList.tail := by decide
      have hreferences : before ++ referencesOf (.hole ref :: rest) =
          (before ++ [reference ref.1 ref.2]) ++ referencesOf rest := by
        rw [List.append_assoc]
        rfl
      have hfound : (before ++ referencesOf (.hole ref :: rest))[before.length]? =
          some (reference ref.1 ref.2) := by
        rw [List.getElem?_append_right (Nat.le_refl _), Nat.sub_self]
        rfl
      have hskip : refMarker.toList.length + (toString before.length).toList.length - 1 =
          (refMarker.toList.tail ++ (toString before.length).toList).length := by
        rw [List.length_append, List.length_tail]
        exact Nat.sub_add_comm (by decide)
      rw [marked, hmarker, List.cons_append, ← List.append_assoc, substituteRefs,
        List.append_assoc, ← List.cons_append, ← hmarker, hmatch] at hresult
      simp only [hfound] at hresult
      split at hresult
      · cases hresult
      · obtain ⟨others, hothers, hsame⟩ := map_eq_ok.mp hresult
        rw [hskip, ← List.append_assoc, substituteRefs_skip, hreferences] at hothers
        have hlength : before.length + 1 = (before ++ [reference ref.1 ref.2]).length := by
          rw [List.length_append, List.length_singleton]
        rw [hlength] at hothers
        rw [← hsame, ih hrest hothers, written_hole, toList_reference]

theorem marked_of_holes_nil {number : ℕ} (hholes : holes items = []) :
    marked number items = written items := by
  induction items with
  | nil => rfl
  | cons item rest ih =>
    cases item with
    | char c => exact congrArg (c :: ·) (ih hholes)
    | hole ref => cases hholes

/-- What is joined before the statement is checked. -/
theorem exists_joined {sql result : String}
    (hprepared : prepareSql engine bindings sql = .ok result) :
    ∃ text all, joinParts engine bindings [] (templateNodes engine sql) = .ok (text, all) ∧
      finishSql engine all text = .ok result := by
  unfold prepareSql at hprepared
  split at hprepared
  · cases hprepared
  · split at hprepared
    · cases hprepared
    next tree htree =>
      split at hprepared
      · cases hprepared
      next nodes hnodes =>
        have htemplate : templateNodes engine sql = nodes := by
          simp only [templateNodes, htree, hnodes]
        split at hprepared
        · cases hprepared
        next text all hjoin =>
          rw [htemplate]
          exact ⟨text, all, hjoin, hprepared⟩

/-- What `prepare_sql` returns for an undisturbed template. -/
theorem toList_prepared (hknown : KnowsDigits engine) {sql result : String}
    (hprepared : prepareSql engine bindings sql = .ok result)
    (hundisturbed : Undisturbed engine (filled engine bindings sql)) :
    result.toList = written (filled engine bindings sql) ∧
      ∀ ref ∈ holes (filled engine bindings sql), ref.Sound := by
  obtain ⟨text, all, hjoin, hfinish⟩ := exists_joined hprepared
  obtain ⟨htext, hall, hsound⟩ := joinParts_filled hjoin
  refine ⟨?_, hsound⟩
  rw [List.nil_append] at hall
  change all = referencesOf (filled engine bindings sql) at hall
  change text.toList = marked ([] : List String).length (filled engine bindings sql) at htext
  unfold finishSql at hfinish
  split at hfinish
  · cases hfinish
  · split at hfinish
    next hnone =>
      rw [← Except.ok.inj hfinish, htext]
      exact marked_of_holes_nil (List.map_eq_nil_iff.mp (hall.symm.trans hnone))
    next hsome =>
      have hholes : holes (filled engine bindings sql) ≠ [] :=
        fun hnone => hsome (hall.trans (List.map_eq_nil_iff.mpr hnone))
      have hsettled := hundisturbed.settled
      rw [decide_eq_true hholes] at hsettled
      obtain ⟨chars, hchars, hsame⟩ := map_eq_ok.mp hfinish
      rw [hall, htext] at hchars
      rw [← hsame, String.toList_ofList]
      exact substituteRefs_marked hknown hsettled
        (show substituteRefs engine ([] ++ _) 0 (marked ([] : List String).length _) = _ from hchars)

/-! ## Reading -/

/-- An item as Jinja reads it: the names by their code units. -/
def reread : Item Ref → Item Call
  | .char c => .char c
  | .hole ref => .hole ⟨ref.1, ref.2.map fun name => name.toList.flatMap codes⟩

theorem opens_written {c : Char} : opens (c :: written rest) = beginsTag c rest := by
  cases rest with
  | nil => rfl
  | cons item rest => cases item <;> rfl

/-- No tag of the written text takes the white space before it. -/
theorem not_takesSpace_written (hsettled : settled engine looked items = true) :
    takesSpace ((written items).dropWhile isSpace) = false := by
  induction items with
  | nil => rfl
  | cons item rest ih =>
    cases item with
    | hole ref => rfl
    | char c =>
      obtain ⟨-, htag, -, hrest⟩ := settled_char hsettled
      rw [written_char, List.dropWhile_cons]
      split
      · exact ih hrest
      · rw [takesSpace, opens_written, htag, Bool.false_and]

theorem no_parenthesis : ∀ fn ∈ boardFns, '(' ∉ fn.toList := by decide

theorem no_carriage : ∀ fn ∈ boardFns, '\r' ∉ fn.toList := by decide

/-- The written text is read item by item. -/
theorem scan_written (reader : Reader boardFns) (hsettled : settled engine looked items = true)
    (hsound : ∀ ref ∈ holes items, ref.Sound) :
    reader.scan (written items) = some (items.map reread) := by
  induction items with
  | nil => exact reader.scan_nil
  | cons item rest ih =>
    cases item with
    | char c =>
      have htrimmed := not_takesSpace_written hsettled
      obtain ⟨-, htag, -, hrest⟩ := settled_char hsettled
      rw [written_char, reader.scan_char c _ (opens_written.trans htag) htrimmed,
        ih hrest hsound]
      rfl
    | hole ref =>
      obtain ⟨fn, names⟩ := ref
      obtain ⟨hfn, hnames⟩ := hsound (fn, names) List.mem_cons_self
      have htail := ih (settled_hole hsettled).2 fun ref href =>
        hsound ref (List.mem_cons_of_mem _ href)
      cases names with
      | nil => exact absurd rfl hnames
      | cons name names =>
        rw [written_hole, reader.scan_writeCall hfn no_parenthesis, htail]
        rfl

theorem carriage_not_mem_written (hsettled : settled engine looked items = true)
    (hsound : ∀ ref ∈ holes items, ref.Sound) : '\r' ∉ written items := by
  induction items with
  | nil => exact List.not_mem_nil
  | cons item rest ih =>
    cases item with
    | char c =>
      obtain ⟨-, -, hc, hrest⟩ := settled_char hsettled
      rw [written_char, List.mem_cons, not_or]
      exact ⟨Ne.symm hc, ih hrest hsound⟩
    | hole ref =>
      have hfn := no_carriage ref.1 (hsound ref List.mem_cons_self).1
      rw [written_hole, List.mem_append, not_or]
      exact ⟨carriage_not_mem_writeCall hfn ref.2, ih (settled_hole hsettled).2 fun ref href =>
        hsound ref (List.mem_cons_of_mem _ href)⟩

theorem getLast?_written (hfinal : items.getLast? ≠ some (.char '\n')) :
    (written items).getLast? ≠ some '\n' := by
  rcases List.eq_nil_or_concat' items with hnil | ⟨first, last, hitems⟩
  · rw [hnil]
    exact nofun
  · rw [hitems, List.getLast?_concat] at hfinal
    rw [hitems, written, List.flatMap_append, List.flatMap_singleton]
    cases last with
    | char c =>
      rw [writtenItem, List.getLast?_concat]
      exact fun hc => hfinal (by rw [Option.some_inj.mp hc])
    | hole ref =>
      rw [writtenItem, List.getLast?_append, getLast?_writeCall]
      exact nofun

/-- An undisturbed template is read with the code units of its names. -/
theorem read_written (reader : Reader boardFns) (hundisturbed : Undisturbed engine items)
    (hsound : ∀ ref ∈ holes items, ref.Sound) :
    reader.read (written items) = some (items.map reread) := by
  rw [Reader.read, newlines_of_not_mem (carriage_not_mem_written hundisturbed.settled hsound),
    dropFinal_of_getLast? (getLast?_written hundisturbed.final),
    scan_written reader hundisturbed.settled hsound]

theorem flatMap_codes_iff (text : List Char) :
    text.flatMap codes = codesOf text ↔ ∀ c ∈ text, c.toNat < 0x10000 := by
  induction text with
  | nil => exact ⟨fun _ => nofun, fun _ => rfl⟩
  | cons c text ih =>
    rw [List.flatMap_cons, codesOf, List.map_cons, ← codesOf, List.forall_mem_cons]
    by_cases hc : c.toNat < 0x10000
    · rw [codes_of_lt hc, List.singleton_append, List.cons_eq_cons, ih]
      exact ⟨fun hsame => ⟨hc, hsame.2⟩, fun hall => ⟨rfl, hall.2⟩⟩
    · -- The first of two surrogates is another code point than the character.
      have hfirst : codes c = [0xD800 + (c.toNat - 0x10000) / 0x400,
          0xDC00 + (c.toNat - 0x10000) % 0x400] := if_neg hc
      have hbound := Python.Json.toNat_lt c
      rw [hfirst]
      refine ⟨fun hsame => ?_, fun hall => absurd hall.1 hc⟩
      have hhead := (List.cons.inj hsame).1
      omega

/-- A name is read as it was exactly when it is in the basic plane. -/
theorem codes_name_iff (name : String) :
    name.toList.flatMap codes = codesOf name.toList ↔ inBasicPlane name = true := by
  rw [flatMap_codes_iff, inBasicPlane, List.all_eq_true]
  exact forall₂_congr fun _ _ => decide_eq_true_iff.symm

theorem mem_holes {ref : Ref} : ref ∈ holes items ↔ .hole ref ∈ items := by
  rw [holes, List.mem_filterMap]
  constructor
  · intro hmem
    obtain ⟨item, hitem, hname⟩ := hmem
    cases item with
    | char c => cases hname
    | hole ref' => exact Option.some_inj.mp hname ▸ hitem
  · exact fun hmem => ⟨.hole ref, hmem, rfl⟩

theorem reread_eq_iff (ref : Ref) :
    reread (.hole ref) = original (.hole ref) ↔ ∀ name ∈ ref.2, inBasicPlane name = true := by
  rw [reread, original, Item.hole.injEq, Call.mk.injEq, List.map_inj_left]
  simp only [true_and, codes_name_iff]

/-- All references are read as they were exactly when their names are in the basic plane. -/
theorem map_reread_iff : items.map reread = items.map original ↔
    ∀ ref ∈ holes items, ∀ name ∈ ref.2, inBasicPlane name = true := by
  rw [List.map_inj_left]
  constructor
  · exact fun hsame ref href => (reread_eq_iff ref).mp (hsame _ (mem_holes.mp href))
  · intro hbasic item hitem
    cases item with
    | char c => rfl
    | hole ref => exact (reread_eq_iff ref).mpr (hbasic ref (mem_holes.mpr hitem))

/-- What an undisturbed template becomes is read as the template exactly when the names of its
references are in the basic plane. -/
theorem read_prepared_iff (hknown : KnowsDigits engine) (reader : Reader boardFns)
    {sql result : String} (hprepared : prepareSql engine bindings sql = .ok result)
    (hundisturbed : Undisturbed engine (filled engine bindings sql)) :
    reader.read result.toList = some ((filled engine bindings sql).map original) ↔
      ∀ ref ∈ holes (filled engine bindings sql), ∀ name ∈ ref.2, inBasicPlane name = true := by
  obtain ⟨hresult, hsound⟩ := toList_prepared hknown hprepared hundisturbed
  rw [hresult, read_written reader hundisturbed hsound, Option.some_inj, map_reread_iff]

/-! ## Columns of a chart -/

open DbtCraft.Services.Boards (aliases innerSql wrappedSql)

/-- The query of a chart behind its columns. -/
def behindColumns (sql : String) : List Char :=
  ("\nfrom (\n" ++ innerSql sql ++ "\n) as chart_data").toList

/-- The calls in the query of a chart behind its columns. -/
def innerCalls (reader : Reader boardFns) (sql : String) : Option (List Call) :=
  (reader.scan (newlines (behindColumns sql))).map holes

/-- The call that quotes exactly this name. -/
def quoteCall (name : String) : Call := ⟨"adapter.quote", [codesOf name.toList]⟩

/-- The columns of a chart, from this index on. -/
def columnsText (index : ℕ) (names : List String) : List Char :=
  (String.intercalate ", " (aliases index names)).toList

/-- The alias of a column. -/
def aliasText (index : ℕ) : List Char := " as field_".toList ++ (toString index).toList

theorem toList_alias (index : ℕ) (name : String) :
    ("\x7b\x7b adapter.quote(" ++ jsonString name ++ ") \x7d\x7d as field_" ++
      toString index).toList = writeCall "adapter.quote" [name] ++ aliasText index := by
  have hopen : "\x7b\x7b adapter.quote(".toList =
      ['\x7b', '\x7b', ' '] ++ ("adapter.quote".toList ++ ['(']) := by decide
  have hclose : ") \x7d\x7d as field_".toList =
      [')', ' ', '\x7d', '\x7d'] ++ " as field_".toList := by decide
  rw [String.toList_append, String.toList_append, String.toList_append, hopen, hclose, writeCall,
    writeArgs_singleton]
  simp only [List.append_assoc]
  rfl

theorem columnsText_singleton (index : ℕ) (name : String) :
    columnsText index [name] = writeCall "adapter.quote" [name] ++ aliasText index := by
  rw [columnsText, aliases, aliases, String.intercalate_singleton, toList_alias]

theorem columnsText_cons (index : ℕ) (name next : String) (names : List String) :
    columnsText index (name :: next :: names) =
      writeCall "adapter.quote" [name] ++
        (aliasText index ++ (", ".toList ++ columnsText (index + 1) (next :: names))) := by
  rw [columnsText, columnsText, aliases, aliases, String.intercalate_cons_cons,
    String.toList_append, String.toList_append, toList_alias]
  simp only [List.append_assoc]

theorem not_mem_aliasText {c : Char} (index : ℕ) (hdigit : c.isDigit = false)
    (hletter : c ∉ " as field_".toList) : c ∉ aliasText index := by
  have hnumber : c ∉ (toString index).toList := fun hmem =>
    absurd ((isDigit_toString hmem).symm.trans hdigit) (by decide)
  exact fun hmem => (List.mem_append.mp hmem).elim hletter hnumber

theorem plain_aliasText (index : ℕ) : '\x7b' ∉ aliasText index ∧ '\r' ∉ aliasText index :=
  ⟨not_mem_aliasText index (by decide) (by decide), not_mem_aliasText index (by decide) (by decide)⟩

theorem carriage_not_mem_columnsText (index : ℕ) (names : List String) :
    '\r' ∉ columnsText index names := by
  have hcall (name : String) : '\r' ∉ writeCall "adapter.quote" [name] :=
    carriage_not_mem_writeCall (by decide) [name]
  induction names generalizing index with
  | nil => exact List.not_mem_nil
  | cons name names ih =>
    cases names with
    | nil =>
      rw [columnsText_singleton, List.mem_append, not_or]
      exact ⟨hcall name, (plain_aliasText index).2⟩
    | cons next names =>
      rw [columnsText_cons]
      simp only [List.mem_append, not_or]
      exact ⟨hcall name, (plain_aliasText index).2, by decide, ih (index + 1)⟩

/-- The columns are read as calls, with the code units of their names. -/
theorem holes_columnsText (reader : Reader boardFns) (index : ℕ) (name : String)
    (names : List String) (rest : List Char) :
    (reader.scan (columnsText index (name :: names) ++ rest)).map holes =
      ((reader.scan rest).map holes).map
        ((name :: names).map (fun name => ⟨"adapter.quote", [name.toList.flatMap codes]⟩) ++ ·) := by
  have hfn : "adapter.quote" ∈ boardFns := by decide
  have hmap (call : Call) (read : Option (List (Item Call))) :
      (read.map (.hole call :: ·)).map holes = (read.map holes).map (call :: ·) := by
    cases read <;> rfl
  induction names generalizing index name with
  | nil =>
    rw [columnsText_singleton, List.append_assoc, reader.scan_writeCall hfn no_parenthesis, hmap,
      reader.holes_append (plain_aliasText index).1]
    rfl
  | cons next names ih =>
    rw [columnsText_cons, List.append_assoc, List.append_assoc, List.append_assoc,
      reader.scan_writeCall hfn no_parenthesis, hmap,
      reader.holes_append (plain_aliasText index).1, reader.holes_append (by decide), ih,
      Option.map_map]
    rfl

/-- The query of a chart is read as its columns and what stands behind them. -/
theorem holes_wrappedSql (reader : Reader boardFns) (sql name : String) (names : List String) :
    (reader.read (wrappedSql sql (name :: names)).toList).map holes =
      (innerCalls reader sql).map
        ((name :: names).map (fun name => ⟨"adapter.quote", [name.toList.flatMap codes]⟩) ++ ·) := by
  have hquery : (wrappedSql sql (name :: names)).toList =
      ("select ".toList ++ columnsText 0 (name :: names)) ++ behindColumns sql := by
    simp [wrappedSql, columnsText, behindColumns, String.toList_append]
  have hlast : behindColumns sql =
      ("\nfrom (\n" ++ innerSql sql ++ "\n) as chart_dat").toList ++ ['a'] := by
    simp [behindColumns, String.toList_append]
  have hcarriage : '\r' ∉ "select ".toList ++ columnsText 0 (name :: names) := by
    rw [List.mem_append, not_or]
    exact ⟨by decide, carriage_not_mem_columnsText 0 _⟩
  have hfinal : (("select ".toList ++ columnsText 0 (name :: names)) ++
      newlines (behindColumns sql)).getLast? ≠ some '\n' := by
    rw [List.getLast?_append, hlast, getLast?_newlines (by decide) (by decide)]
    exact nofun
  rw [Reader.read, hquery, newlines_append hcarriage, dropFinal_of_getLast? hfinal,
    List.append_assoc, reader.holes_append (by decide), holes_columnsText, innerCalls]

/-- The query of a chart quotes exactly the columns when their names are in the basic plane. -/
theorem quotes_iff (reader : Reader boardFns) {sql name : String} {names : List String}
    {calls : List Call} (hinner : innerCalls reader sql = some calls) :
    (reader.read (wrappedSql sql (name :: names)).toList).map holes =
        some ((name :: names).map quoteCall ++ calls) ↔
      ∀ column ∈ name :: names, inBasicPlane column = true := by
  rw [holes_wrappedSql, hinner, Option.map_some, Option.some_inj, List.append_left_inj,
    List.map_inj_left]
  apply forall₂_congr
  intro column _
  rw [quoteCall, Call.mk.injEq, List.cons_eq_cons, codes_name_iff]
  simp only [true_and, and_true]

/-- **Names survive in the basic plane.** What an undisturbed template becomes is read with the
same calls between the same text, and the query of a chart with quotes of exactly its columns,
when and only when no name has a character outside the basic plane. -/
theorem names_survive_iff (engine : Engine) (hknown : KnowsDigits engine)
    (reader : Reader boardFns) :
    (∀ (bindings : Bindings) (sql result : String),
        prepareSql engine bindings sql = .ok result →
          Undisturbed engine (filled engine bindings sql) →
            (reader.read result.toList = some ((filled engine bindings sql).map original) ↔
              ∀ ref ∈ holes (filled engine bindings sql), ∀ name ∈ ref.2,
                inBasicPlane name = true)) ∧
      ∀ (sql name : String) (names : List String) (calls : List Call),
        innerCalls reader sql = some calls →
          ((reader.read (wrappedSql sql (name :: names)).toList).map holes =
              some ((name :: names).map quoteCall ++ calls) ↔
            ∀ column ∈ name :: names, inBasicPlane column = true) :=
  ⟨fun _ _ _ hprepared hundisturbed => read_prepared_iff hknown reader hprepared hundisturbed,
    fun _ _ _ _ hinner => quotes_iff reader hinner⟩

theorem knowsDigits_orders : KnowsDigits orders where
  digit_ascii c hc := if_pos hc
  word_of_digit c value hvalue := by
    have hdigit : c.isDigit = true := by
      by_contra hnot
      exact nomatch (if_neg hnot).symm.trans hvalue
    simp [orders, Char.isAlphanum, hdigit]
  underscore_word := by decide
  underscore_not_digit := by decide

/-- Orders of the north, and a chart of regions. -/
theorem names_survive_in_orders :
    (plainCalls boardFns).read
        "select * from \x7b\x7b ref(\"orders\") \x7d\x7d where region = 'north'".toList =
      some ((filled orders [("region", .str "north")] regionSql).map original) ∧
    ((plainCalls boardFns).read (wrappedSql "select * from orders;" ["region"]).toList).map holes =
      some [quoteCall "region"] := by
  have hsurvive := names_survive_iff orders knowsDigits_orders (plainCalls boardFns)
  apply And.intro
  · exact (hsurvive.1 [("region", .str "north")] regionSql _ (by decide +kernel)
      (by decide +kernel)).mpr (by decide +kernel)
  · exact (hsurvive.2 "select * from orders;" "region" [] [] (by decide +kernel)).mpr
      (by decide +kernel)

/-- Apples, by a sign outside the basic plane. -/
def applesSql : String := "select * from \x7b\x7b ref('🍎') \x7d\x7d"

/-- Jinja and sqlglot on this template. -/
def apples : Engine where
  parse sql :=
    if sql = applesSql then
      some [.output [.data "select * from ", .call (.name "ref") [.const (.str "🍎")] true]]
    else none
  validate prepared :=
    if prepared = "select * from __board_ref_0" then .ok ()
    else .error "Only a single SELECT/WITH query is allowed"
  isWord := orders.isWord
  digit := orders.digit
  quote_not_word := orders.quote_not_word
  quote_not_digit := orders.quote_not_digit

/-- A name outside the basic plane is written as two escapes and read as two surrogates. -/
theorem not_survive_of_sign :
    ¬ ∀ (engine : Engine) (reader : Reader boardFns) (bindings : Bindings) (sql result : String),
      KnowsDigits engine → prepareSql engine bindings sql = .ok result →
        reader.read result.toList = some ((filled engine bindings sql).map original) := by
  intro hclaim
  have hsame := hclaim apples (plainCalls boardFns) [] applesSql
    "select * from \x7b\x7b ref(\"\\ud83c\\udf4e\") \x7d\x7d"
    ⟨knowsDigits_orders.digit_ascii, knowsDigits_orders.word_of_digit,
      knowsDigits_orders.underscore_word, knowsDigits_orders.underscore_not_digit⟩
    (by decide +kernel)
  exact absurd hsame (by decide +kernel)

end DbtCraft.Services.BoardSql

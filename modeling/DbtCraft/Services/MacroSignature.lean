/-
# When the signature of a macro is read right

`macro_signature` of `app/services/dbt_cli.py` looks for the parenthesis that closes the list of
arguments without regard to strings, and ends a string at every quote, escaped or not. The
signature is right just if neither of them makes a difference for the list.
-/

import DbtCraft.Python.Shlex
import DbtCraft.Services.MacroArguments

namespace DbtCraft.Services.MacroSignature

open DbtCraft.Python hiding isPlain
open DbtCraft.Services.MacroArguments

variable {text part name rest tail : List Char} {argument : Argument} {c : Char}

/-! ## The tag -/

theorem afterWord_append (word : List Char) : afterWord word (word ++ text) = some text := by
  induction word with
  | nil => rfl
  | cons d word ih => rw [List.cons_append, afterWord, if_pos rfl, ih]

theorem dropWhile_blank (blank : Blank) (hc : isSpace c = false) :
    (blank.text ++ c :: rest).dropWhile isSpace = c :: rest := by
  rw [List.dropWhile_append_of_pos blank.blank, List.dropWhile_cons_of_neg (by simp [hc])]

theorem isSpace_of_plain (hc : isPlain c = true) : isSpace c = false := by
  cases hspace : isSpace c with
  | false => rfl
  | true => simp [isPlain, hspace] at hc

/-- The pattern matches at the beginning of a definition. -/
theorem afterOpening_text (definition : MacroDefinition) (hplus : definition.opening ≠ .plus) :
    afterOpening definition.name.text definition.text = some definition.tail := by
  have hmacro : ∀ more : List Char, (definition.before.text ++ (['m', 'a', 'c', 'r', 'o'] ++
      more)).dropWhile isSpace = ['m', 'a', 'c', 'r', 'o'] ++ more := fun more =>
    dropWhile_blank definition.before (by decide)
  have hgap : (definition.gap.text ++ (definition.name.text ++ (definition.after.text ++
      '(' :: definition.tail))).head?.any isSpace = true := by
    cases htext : definition.gap.text with
    | nil => exact absurd htext definition.gap_ne_nil
    | cons c more => exact definition.gap.blank c (htext ▸ List.mem_cons_self)
  have hname : (definition.gap.text ++ (definition.name.text ++ (definition.after.text ++
      '(' :: definition.tail))).dropWhile isSpace =
      definition.name.text ++ (definition.after.text ++ '(' :: definition.tail) := by
    cases htext : definition.name.text with
    | nil => exact absurd htext definition.name.ne_nil
    | cons c more =>
      exact dropWhile_blank definition.gap
        (isSpace_of_plain (definition.name.plain c (htext ▸ List.mem_cons_self)))
  have hlist : (definition.after.text ++ '(' :: definition.tail).dropWhile isSpace =
      '(' :: definition.tail := dropWhile_blank definition.after (by decide)
  -- behind the bare opening there is no dash, but white space or the word itself
  have hbare : ∀ more : List Char,
      (afterWord ['-'] (definition.before.text ++ (['m', 'a', 'c', 'r', 'o'] ++ more))).getD
        (definition.before.text ++ (['m', 'a', 'c', 'r', 'o'] ++ more)) =
      definition.before.text ++ (['m', 'a', 'c', 'r', 'o'] ++ more) := by
    intro more
    cases htext : definition.before.text with
    | nil => rfl
    | cons c blank =>
      have hc := definition.before.blank c (htext ▸ List.mem_cons_self)
      have hdash : c ≠ '-' := fun hsame => by
        rw [hsame] at hc
        exact absurd hc (by decide)
      rw [List.cons_append, afterWord, if_neg hdash, Option.getD_none]
  have hword : afterWord ['('] ('(' :: definition.tail) = some definition.tail :=
    afterWord_append ['(']
  cases hopening : definition.opening with
  | bare =>
    rw [MacroDefinition.text, hopening, Opening.text, afterOpening, afterWord_append]
    simp only [Option.bind_eq_bind, Option.bind_some]
    rw [hbare, hmacro, afterWord_append, Option.bind_some, if_pos hgap, hname, afterWord_append,
      Option.bind_some, hlist, hword]
  | dash =>
    rw [MacroDefinition.text, hopening, Opening.text, afterOpening]
    have hdash : ∀ more : List Char, afterWord ['{', '%'] (['{', '%', '-'] ++ more) =
        some (['-'] ++ more) := fun more => rfl
    rw [hdash]
    simp only [Option.bind_eq_bind, Option.bind_some]
    rw [afterWord_append, Option.getD_some, hmacro, afterWord_append, Option.bind_some,
      if_pos hgap, hname, afterWord_append, Option.bind_some, hlist, hword]
  | plus => exact absurd hopening hplus

theorem search_text (definition : MacroDefinition) (hplus : definition.opening ≠ .plus) :
    search definition.name.text definition.text = some definition.tail := by
  have hfound := afterOpening_text definition hplus
  cases htext : definition.text with
  | nil =>
    rw [htext] at hfound
    cases hfound
  | cons c more =>
    rw [htext] at hfound
    rw [search, hfound]

/-! ## The closing parenthesis -/

theorem forall_prefix_cons {P : List Char → Prop} :
    (∀ first, first <+: c :: text → P first) ↔ P [] ∧ ∀ first, first <+: text → P (c :: first) := by
  apply Iff.intro
  · intro hall
    exact ⟨hall [] List.nil_prefix, fun first hfirst =>
      hall (c :: first) ((List.prefix_cons_inj c).mpr hfirst)⟩
  · intro hall first hfirst
    rcases List.prefix_cons_iff.mp hfirst with hnil | ⟨more, hmore, hprefix⟩
    · exact hnil ▸ hall.1
    · exact hmore ▸ hall.2 more hprefix

/-- The parenthesis behind a text is found just if those in the text match. -/
theorem inner_eq_iff {depth : ℕ} (hdepth : 1 ≤ depth) :
    inner depth (text ++ ')' :: rest) = some text ↔
      (∀ first, first <+: text → first.count ')' < first.count '(' + depth) ∧
        text.count '(' + depth = text.count ')' + 1 := by
  induction text generalizing depth with
  | nil =>
    rw [List.nil_append, MacroArguments.inner, if_neg (by decide), if_pos rfl]
    by_cases hone : depth = 1
    · simp [hone]
    · rw [if_neg hone]
      simp [hone]
  | cons c more ih =>
    rw [List.cons_append, MacroArguments.inner, forall_prefix_cons]
    by_cases hopens : c = '('
    · have hmore := @ih (depth + 1) (by omega)
      have hcounts : ∀ first : List Char,
          first.count '(' + 1 + depth = first.count '(' + (depth + 1) := fun first => by omega
      rw [if_pos hopens, hopens]
      simp [hmore, hcounts]
      omega
    · by_cases hcloses : c = ')'
      · rw [if_neg hopens, if_pos hcloses, hcloses]
        by_cases hone : depth = 1
        · rw [if_pos hone, hone]
          have hnil := List.nil_prefix (l := more)
          apply iff_of_false
          · simp
          · intro hall
            simpa using hall.1.2 [] hnil
        · have hmore := @ih (depth - 1) (by omega)
          have hcounts : ∀ own other : ℕ, own < other + (depth - 1) ↔ own + 1 < other + depth :=
            fun own other => by omega
          rw [if_neg hone]
          have hends : ∀ own other : ℕ,
              own + (depth - 1) = other + 1 ↔ own + depth = other + 1 + 1 := fun own other => by omega
          have hpos : 0 < depth := hdepth
          simp [hmore, hcounts, hends, hpos]
      · rw [if_neg hopens, if_neg hcloses]
        simp [ih hdepth, List.count_cons_of_ne hopens, List.count_cons_of_ne hcloses]
        omega

/-- What is read as the list of arguments is followed by a parenthesis. -/
theorem inner_eq_some {depth : ℕ} {found : List Char} (hfound : inner depth text = some found) :
    ∃ later, text = found ++ ')' :: later := by
  induction text generalizing depth found with
  | nil => cases hfound
  | cons c more ih =>
    have hlonger : ∀ {depth : ℕ}, (inner depth more).map (c :: ·) = some found →
        ∃ later, c :: more = found ++ ')' :: later := by
      intro depth hmap
      obtain ⟨shorter, hshorter, hcons⟩ := Option.map_eq_some_iff.mp hmap
      obtain ⟨later, hlater⟩ := ih hshorter
      exact ⟨later, by rw [← hcons, hlater, List.cons_append]⟩
    rw [MacroArguments.inner] at hfound
    split at hfound
    · exact hlonger hfound
    · split at hfound
      next hcloses =>
        split at hfound
        · exact ⟨more, by rw [← Option.some.inj hfound, hcloses, List.nil_append]⟩
        · exact hlonger hfound
      · exact hlonger hfound

/-! ## Arguments -/

/-- Letters that Jinja passes over. -/
theorem passes_of_not_mem (hc : c ∉ ['\'', '"', '(', '[', '{', ')', ']', '}', ',']) :
    jinja.step jinja.start c = jinja.start ∧ c ≠ jinja.separator := by
  simp only [List.mem_cons, List.not_mem_nil, or_false, not_or] at hc
  simp [jinja, Reading.step, closerOf, hc]

theorem passes_of_plain (hc : isPlain c = true) :
    jinja.step jinja.start c = jinja.start ∧ c ≠ jinja.separator := by
  apply passes_of_not_mem
  intro hmem
  simp only [List.mem_cons, List.not_mem_nil, or_false] at hmem
  rcases hmem with h | h | h | h | h | h | h | h | h <;> simp [h, isPlain] at hc

theorem passes_of_isSpace (hc : isSpace c = true) :
    jinja.step jinja.start c = jinja.start ∧ c ≠ jinja.separator := by
  apply passes_of_not_mem
  intro hmem
  simp only [List.mem_cons, List.not_mem_nil, or_false] at hmem
  rcases hmem with h | h | h | h | h | h | h | h | h <;>
    exact absurd (h ▸ hc) (by decide)

theorem closed_blank (blank : Blank) : jinja.Closed blank.text :=
  Tracker.closed_of_step fun c hc => passes_of_isSpace (blank.blank c hc)

/-- An argument is one piece for Jinja. -/
theorem closed_text (argument : Argument) : jinja.Closed argument.text := by
  have hname : jinja.Closed argument.name.text :=
    Tracker.closed_of_step fun c hc => passes_of_plain (argument.name.plain c hc)
  have hequals : jinja.Closed ['='] :=
    Tracker.closed_of_step fun c hc => by
      rw [List.mem_singleton.mp hc]
      exact passes_of_not_mem (by decide)
  have hdefault : jinja.Closed ((argument.default.map Default.text).getD []) := by
    cases argument.default with
    | none => exact Tracker.closed_of_step fun c hc => absurd hc List.not_mem_nil
    | some default =>
      exact hequals.append ((closed_blank default.before).append
        (default.source.closed.append (closed_blank default.after)))
  exact ((closed_blank argument.before).append (hname.append (closed_blank argument.after))).append
    hdefault

/-- What stands before the default of an argument. -/
def lead (argument : Argument) : List Char :=
  argument.before.text ++ (argument.name.text ++ argument.after.text)

theorem not_mem_lead (hspace : isSpace c = false) (hplain : isPlain c = false) :
    c ∉ lead argument := by
  intro hmem
  rcases List.mem_append.mp hmem with hbefore | hrest
  · rw [argument.before.blank c hbefore] at hspace
    cases hspace
  · rcases List.mem_append.mp hrest with hname | hafter
    · rw [argument.name.plain c hname] at hplain
      cases hplain
    · rw [argument.after.blank c hafter] at hspace
      cases hspace

/-- The beginning of a part up to its first equals sign. -/
theorem takeWhile_lead (hpart : lead argument <+: part) :
    lead argument <+: part.takeWhile (· ≠ '=') := by
  obtain ⟨more, hmore⟩ := hpart
  have hall : ∀ c ∈ lead argument, decide (c ≠ '=') = true := fun c hc =>
    decide_eq_true fun hsame => not_mem_lead (by decide) (by decide) (hsame ▸ hc)
  rw [← hmore, List.takeWhile_append_of_pos hall]
  exact List.prefix_append _ _

/-- A part that begins with an argument has an entry. -/
theorem exists_parameterOf (hpart : lead argument <+: part) :
    ∃ entry, parameterOf part = some entry := by
  have hname : stripped (part.takeWhile (· ≠ '=')) ≠ [] := by
    cases htext : argument.name.text with
    | nil => exact absurd htext argument.name.ne_nil
    | cons c more =>
      have hc : c ∈ argument.name.text := htext ▸ List.mem_cons_self
      apply stripped_ne_nil _ (isSpace_of_plain (argument.name.plain c hc))
      exact (takeWhile_lead hpart).subset
        (List.mem_append_right _ (List.mem_append_left _ hc))
  exact ⟨_, by rw [parameterOf, if_neg hname]⟩

theorem trimmed_name (name : Name) : Trimmed name.text where
  head c hc := isSpace_of_plain (name.plain c (List.mem_of_mem_head? hc))
  last c hc := isSpace_of_plain (name.plain c (List.mem_of_mem_getLast? hc))

/-- The entry of an argument. -/
theorem parameterOf_text (argument : Argument) :
    parameterOf argument.text = some argument.parameter := by
  have hall : ∀ c ∈ lead argument, decide (c ≠ '=') = true := fun c hc =>
    decide_eq_true fun hsame => not_mem_lead (by decide) (by decide) (hsame ▸ hc)
  have hname : stripped (lead argument) = argument.name.text :=
    stripped_append argument.before.blank argument.name.ne_nil (trimmed_name argument.name)
      argument.after.blank
  have hlead : argument.text = lead argument ++ (argument.default.map Default.text).getD [] := rfl
  rw [parameterOf, hlead, List.takeWhile_append_of_pos hall, List.dropWhile_append_of_pos hall]
  cases hdefault : argument.default with
  | none =>
    have hnil : stripped [] = [] := rfl
    simp [hname, argument.name.ne_nil, Argument.parameter, hdefault, hnil]
  | some default =>
    have hsource : stripped (default.before.text ++ (default.source.text ++ default.after.text)) =
        default.source.text :=
      stripped_append default.before.blank default.source.ne_nil default.source.trimmed
        default.after.blank
    simp [Default.text, hname, argument.name.ne_nil, Argument.parameter, hdefault, hsource,
      default.source.ne_nil]

/-- An entry has all the letters of its part, but for white space and equals signs. -/
theorem count_parameterOf {entry : Parameter} (hentry : parameterOf part = some entry)
    (hspace : isSpace c = false) (hequals : c ≠ '=') :
    entry.name.count c + (entry.default.getD []).count c = part.count c := by
  rw [parameterOf] at hentry
  split at hentry
  · cases hentry
  · have hdefault : entry.default.getD [] = stripped ((part.dropWhile (· ≠ '=')).drop 1) := by
      rw [← Option.some.inj hentry]
      simp only
      split
      next hnil => rw [hnil, Option.getD_none]
      · rw [Option.getD_some]
    have hdrop : ((part.dropWhile (· ≠ '=')).drop 1).count c =
        (part.dropWhile (· ≠ '=')).count c := by
      cases hmore : part.dropWhile (· ≠ '=') with
      | nil => rfl
      | cons d more =>
        have hd := List.head?_dropWhile_not (fun c : Char => decide (c ≠ '=')) part
        rw [hmore] at hd
        have heq : d = '=' := by simpa using hd
        rw [heq, List.drop_succ_cons, List.drop_zero, List.count_cons_of_ne (Ne.symm hequals)]
    have hwhole : part.takeWhile (· ≠ '=') ++ part.dropWhile (· ≠ '=') = part :=
      List.takeWhile_append_dropWhile
    rw [hdefault, ← Option.some.inj hentry, count_stripped hspace, count_stripped hspace, hdrop,
      ← List.count_append, hwhole]

/-! ## Parts and arguments -/

/-- The letters at which a part can end. -/
def isEnd (c : Char) : Prop := c = ',' ∨ c = ')'

theorem isEnd.facts (hc : isEnd c) : isSpace c = false ∧ isPlain c = false ∧ c ≠ '=' := by
  rcases hc with hcomma | hcloses
  · rw [hcomma]
    decide
  · rw [hcloses]
    decide

/-- A part that ends before a comma or a parenthesis is not within the name of an argument. -/
theorem prefix_lead {more : List Char} (htext : part ++ c :: tail = argument.text ++ more)
    (hc : isEnd c) : lead argument <+: part := by
  rw [Argument.text, List.append_assoc] at htext
  rcases List.append_eq_append_iff.mp htext with ⟨later, hlead, hlater⟩ | ⟨later, hpart, _⟩
  · cases later with
    | nil =>
      rw [List.append_nil] at hlead
      exact hlead ▸ List.prefix_rfl
    | cons d others =>
      have hd : c = d := (List.cons.inj hlater).1
      have hmem : c ∈ lead argument := by
        rw [lead, hlead, hd]
        exact List.mem_append_right part List.mem_cons_self
      exact absurd hmem (not_mem_lead hc.facts.1 hc.facts.2.1)
  · exact ⟨later, hpart.symm⟩

/-- A part with the entry of an argument is its text. -/
theorem part_eq_text {d : Char} {more : List Char}
    (htext : part ++ c :: tail = argument.text ++ d :: more) (hc : isEnd c) (hd : isEnd d)
    (hentry : parameterOf part = some argument.parameter) : part = argument.text := by
  have hcount : ∀ {e : Char}, isEnd e → part.count e = argument.text.count e := fun he =>
    (count_parameterOf hentry he.facts.1 he.facts.2.2).symm.trans
      (count_parameterOf (parameterOf_text argument) he.facts.1 he.facts.2.2)
  rcases List.append_eq_append_iff.mp htext with ⟨later, hown, hlater⟩ | ⟨later, hpart, hlater⟩
  · cases later with
    | nil => rw [hown, List.append_nil]
    | cons e others =>
      have hmany := hcount hc
      rw [hown, List.count_append, ← (List.cons.inj hlater).1, List.count_cons_self] at hmany
      omega
  · cases later with
    | nil => rw [hpart, List.append_nil]
    | cons e others =>
      have hmany := hcount hd
      rw [hpart, List.count_append, ← (List.cons.inj hlater).1, List.count_cons_self] at hmany
      omega

theorem intercalate_cons {next : List Char} {others : List (List Char)} :
    [','].intercalate (part :: next :: others) =
      part ++ ',' :: [','].intercalate (next :: others) := by
  simp [List.intercalate]

/-- **The entries show where the parts end**: parts that have the entries of the arguments are
their texts, when both are followed by a parenthesis in the same text. -/
theorem parts_eq {arguments : List Argument} {parts : List (List Char)} {own other : List Char}
    (hparts : parts ≠ []) (harguments : arguments ≠ [])
    (htext : [','].intercalate parts ++ ')' :: own =
      [','].intercalate (arguments.map Argument.text) ++ ')' :: other)
    (hentries : parts.filterMap parameterOf = arguments.map Argument.parameter) :
    parts = arguments.map Argument.text := by
  induction arguments generalizing parts with
  | nil => exact absurd rfl harguments
  | cons argument others ih =>
    cases parts with
    | nil => exact absurd rfl hparts
    | cons part later =>
      -- each side goes on behind its first piece with a comma or with the parenthesis
      obtain ⟨c, tail, hc, hleft⟩ : ∃ c tail, isEnd c ∧
          [','].intercalate (part :: later) ++ ')' :: own = part ++ c :: tail := by
        cases later with
        | nil => exact ⟨')', own, .inr rfl, by simp [List.intercalate]⟩
        | cons next more =>
          exact ⟨',', _, .inl rfl, by
            rw [intercalate_cons, List.append_assoc, List.cons_append]⟩
      obtain ⟨d, tail', hd, hright⟩ : ∃ d tail', isEnd d ∧
          [','].intercalate ((argument :: others).map Argument.text) ++ ')' :: other =
            argument.text ++ d :: tail' := by
        cases others with
        | nil => exact ⟨')', other, .inr rfl, by simp [List.intercalate]⟩
        | cons next more =>
          exact ⟨',', _, .inl rfl, by
            rw [List.map_cons, List.map_cons, intercalate_cons, List.append_assoc,
              List.cons_append]⟩
      have hfirst := (hleft.symm.trans htext).trans hright
      obtain ⟨entry, hentry⟩ := exists_parameterOf (prefix_lead hfirst hc)
      rw [List.filterMap_cons_some hentry, List.map_cons] at hentries
      obtain ⟨hsame, hmore⟩ := List.cons.inj hentries
      have hpart := part_eq_text hfirst hc hd (hsame ▸ hentry)
      cases later with
      | nil =>
        cases others with
        | nil => rw [hpart, List.map_singleton]
        | cons next more => cases hmore
      | cons following rest =>
        cases others with
        | nil =>
          rw [hpart, intercalate_cons, List.map_singleton] at htext
          simp [List.intercalate] at htext
        | cons next more =>
          rw [hpart, List.map_cons, List.map_cons, intercalate_cons, intercalate_cons,
            List.append_assoc, List.append_assoc] at htext
          have hrest := List.append_cancel_left htext
          rw [List.cons_append, List.cons_append] at hrest
          have heq := ih (List.cons_ne_nil following rest) (List.cons_ne_nil next more)
            (List.cons.inj hrest).2 hmore
          rw [hpart, heq]
          rfl

/-! ## Signatures -/

theorem parameterOf_of_blank (hblank : stripped part = []) : parameterOf part = none := by
  have hname : stripped (part.takeWhile (· ≠ '=')) = [] := by
    apply stripped_of_blank
    intro c hc
    cases hspace : isSpace c with
    | true => rfl
    | false =>
      exact absurd hblank
        (stripped_ne_nil ((List.takeWhile_prefix _).subset hc) hspace)
  rw [parameterOf, if_pos hname]

/-- A blank part at the end has no entry anyway. -/
theorem filterMap_splitTopLevel :
    (splitTopLevel text).filterMap parameterOf = (blind.pieces text).filterMap parameterOf := by
  rw [splitTopLevel, Tracker.pieces]
  by_cases hblank : stripped (blind.cut blind.start [] text).2 = []
  · simp [hblank, parameterOf_of_blank hblank]
  · simp [hblank]

/-- The pieces of a list that has arguments are kept. -/
theorem splitTopLevel_eq {arguments : List Argument}
    (hpieces : blind.pieces text = arguments.map Argument.text) :
    splitTopLevel text = blind.pieces text := by
  have hlast : (blind.cut blind.start [] text).2 ∈ arguments.map Argument.text := by
    rw [← hpieces, Tracker.pieces]
    exact List.mem_append_right _ List.mem_cons_self
  obtain ⟨argument, _, htext⟩ := List.mem_map.mp hlast
  have hfull : stripped (blind.cut blind.start [] text).2 ≠ [] := by
    intro hblank
    rw [← htext] at hblank
    have hentry := parameterOf_text argument
    rw [parameterOf_of_blank hblank] at hentry
    cases hentry
  rw [splitTopLevel, Tracker.pieces]
  simp [hfull]

/-- The entries are the names and the defaults of the arguments, and the parts give back the text
of the list. -/
structure Recovered (definition : MacroDefinition) : Prop where
  signature : macroSignature definition.text definition.name.text =
    definition.list.arguments.map Argument.parameter
  parts : [','].intercalate (splitTopLevel definition.list.text) = definition.list.text

/-- Neither strings nor backslashes make a difference for the two passes over the list. -/
structure Legible (definition : MacroDefinition) : Prop where
  opening : definition.opening ≠ .plus
  /-- The parentheses match, those in strings with the others. -/
  matched : ∀ first, first <+: definition.list.text → first.count ')' ≤ first.count '('
  even : definition.list.text.count '(' = definition.list.text.count ')'
  /-- A comma stands at the top level just if it does when a backslash is a letter as any other. -/
  commas : ∀ first rest, definition.list.text = first ++ ',' :: rest →
    (first.foldl blind.step blind.start = blind.start ↔
      first.foldl jinja.step jinja.start = jinja.start)
  /-- A list without arguments is not blank. -/
  filled : definition.list.arguments = [] → definition.list.text = []

theorem inner_tail_iff (definition : MacroDefinition) :
    inner 1 definition.tail = some definition.list.text ↔
      (∀ first, first <+: definition.list.text → first.count ')' ≤ first.count '(') ∧
        definition.list.text.count '(' = definition.list.text.count ')' := by
  rw [MacroDefinition.tail, inner_eq_iff (Nat.le_refl 1)]
  simp only [Nat.lt_succ_iff, Nat.add_right_cancel_iff]

theorem macroSignature_text {definition : MacroDefinition} {found : List Char}
    (hplus : definition.opening ≠ .plus) (hfound : inner 1 definition.tail = some found) :
    macroSignature definition.text definition.name.text =
      (blind.pieces found).filterMap parameterOf := by
  rw [macroSignature, search_text definition hplus]
  simp only
  rw [hfound]
  exact filterMap_splitTopLevel

theorem pieces_iff : blind.pieces text = jinja.pieces text ↔
    ∀ first rest, text = first ++ ',' :: rest →
      (first.foldl blind.step blind.start = blind.start ↔
        first.foldl jinja.step jinja.start = jinja.start) := Tracker.pieces_eq_iff rfl

/-- The arguments of a list are its pieces for Jinja. -/
theorem pieces_text (first : Argument) (others : List Argument) :
    jinja.pieces (ArgumentList.filled first others).text = (first :: others).map Argument.text := by
  refine Tracker.pieces_intercalate (fun piece hpiece => ?_) (List.cons_ne_nil _ _)
  obtain ⟨argument, _, htext⟩ := List.mem_map.mp hpiece
  exact htext ▸ closed_text argument

theorem filterMap_text (arguments : List Argument) :
    (arguments.map Argument.text).filterMap parameterOf = arguments.map Argument.parameter := by
  induction arguments with
  | nil => rfl
  | cons argument others ih =>
    rw [List.map_cons, List.filterMap_cons_some (parameterOf_text argument), ih, List.map_cons]

theorem recovered_of_legible {definition : MacroDefinition} (hlegible : Legible definition) :
    Recovered definition := by
  have hfound := (inner_tail_iff definition).mpr ⟨hlegible.matched, hlegible.even⟩
  have hsignature := macroSignature_text hlegible.opening hfound
  cases hlist : definition.list with
  | empty blank =>
    have htext : definition.list.text = [] := hlegible.filled (by rw [hlist]; rfl)
    apply Recovered.mk
    · rw [hsignature, htext, hlist]
      rfl
    · rw [htext]
      rfl
  | filled first others =>
    have hpieces : blind.pieces definition.list.text = (first :: others).map Argument.text := by
      rw [pieces_iff.mpr hlegible.commas, hlist]
      exact pieces_text first others
    apply Recovered.mk
    · rw [hsignature, hpieces, filterMap_text, hlist]
      rfl
    · rw [splitTopLevel_eq hpieces]
      exact blind.intercalate_pieces definition.list.text

theorem not_mem_blank (blank : Blank) (hc : isSpace c = false) : c ∉ blank.text := fun hmem => by
  rw [blank.blank c hmem] at hc
  cases hc

theorem legible_of_recovered {definition : MacroDefinition} (hplus : definition.opening ≠ .plus)
    (hrecovered : Recovered definition) : Legible definition := by
  cases hlist : definition.list with
  | empty blank =>
    have htext : definition.list.text = blank.text := by rw [hlist]; rfl
    have hnone : ∀ {c : Char}, isSpace c = false → ∀ first, first <+: definition.list.text →
        first.count c = 0 := fun hc first hfirst =>
      List.count_eq_zero.mpr fun hmem => not_mem_blank blank hc (htext ▸ hfirst.subset hmem)
    have hcomma : ∀ first rest, definition.list.text ≠ first ++ ',' :: rest := by
      intro first rest hsplit
      have hmem : ',' ∈ blank.text := by
        rw [← htext, hsplit]
        exact List.mem_append_right first List.mem_cons_self
      exact not_mem_blank blank (by decide) hmem
    have hblank : stripped definition.list.text = [] := stripped_of_blank (htext ▸ blank.blank)
    have hcut : (blind.cut blind.start [] definition.list.text).2 = definition.list.text ∧
        (blind.cut blind.start [] definition.list.text).1 = [] := by
      have huncut : ∀ before after, definition.list.text = before ++ blind.separator :: after →
          before.foldl blind.step blind.start ≠ blind.start := fun before after hsplit =>
        absurd hsplit (hcomma before after)
      have hstep := Tracker.cut_append [] [] huncut
      rw [List.append_nil, List.nil_append] at hstep
      rw [hstep]
      exact ⟨rfl, rfl⟩
    apply Legible.mk hplus
    · intro first hfirst
      rw [hnone (by decide) first hfirst]
      exact Nat.zero_le _
    · rw [hnone (by decide) _ List.prefix_rfl, hnone (by decide) _ List.prefix_rfl]
    · exact fun first rest hsplit => absurd hsplit (hcomma first rest)
    · intro _
      have hparts := hrecovered.parts
      rw [splitTopLevel] at hparts
      simp only [hcut, hblank, ne_eq, not_true_eq_false, if_false] at hparts
      exact hparts.symm
  | filled first others =>
    have hsignature := hrecovered.signature
    cases hfound : inner 1 definition.tail with
    | none =>
      rw [macroSignature, search_text definition hplus, hlist] at hsignature
      simp only [hfound] at hsignature
      cases hsignature
    | some found =>
      obtain ⟨later, hlater⟩ := inner_eq_some hfound
      rw [macroSignature_text hplus hfound, hlist] at hsignature
      have hjoined : [','].intercalate (blind.pieces found) = found :=
        blind.intercalate_pieces found
      have htext : [','].intercalate (blind.pieces found) ++ ')' :: later =
          [','].intercalate ((first :: others).map Argument.text) ++
            ')' :: definition.rest := by
        rw [hjoined, ← hlater, MacroDefinition.tail, hlist]
        rfl
      have hpieces : blind.pieces found = (first :: others).map Argument.text :=
        parts_eq (List.append_ne_nil_of_right_ne_nil _ (List.cons_ne_nil _ _))
          (List.cons_ne_nil first others) htext hsignature
      have hsame : found = definition.list.text := by
        rw [← hjoined, hpieces, hlist]
        rfl
      obtain ⟨hmatched, heven⟩ := (inner_tail_iff definition).mp (hsame ▸ hfound)
      apply Legible.mk hplus hmatched heven
      · apply pieces_iff.mp
        rw [← hsame, hpieces, hsame, hlist, pieces_text]
      · intro hnil
        rw [hlist] at hnil
        cases hnil

/-- **The signature of a legible definition is read right**, and behind a tag that the pattern
knows no other one is. -/
theorem recovered_iff_legible (definition : MacroDefinition) :
    (Legible definition → Recovered definition) ∧
      (definition.opening ≠ .plus → Recovered definition → Legible definition) :=
  ⟨recovered_of_legible, legible_of_recovered⟩

/-! ## A parenthesis in a string -/

/-- `')'`. -/
def closingString : Source where
  text := ['\'', ')', '\'']
  ne_nil := by decide
  trimmed := ⟨by rintro _ ⟨⟩; rfl, by rintro _ ⟨⟩; rfl⟩
  closed := ⟨by decide, fun first rest hsplit => by
    have hmem : ',' ∈ ['\'', ')', '\''] := by
      rw [hsplit]
      exact List.mem_append_right first List.mem_cons_self
    exact absurd hmem (by decide)⟩

/-- `{% macro m(a=')') %}`. -/
def closingDefinition : MacroDefinition where
  opening := .bare
  before := ⟨[' '], by decide⟩
  gap := ⟨[' '], by decide⟩
  gap_ne_nil := by decide
  name := ⟨['m'], by decide, by decide⟩
  after := ⟨[], by decide⟩
  list := .filled ⟨⟨[], by decide⟩, ⟨['a'], by decide, by decide⟩, ⟨[], by decide⟩,
    some ⟨⟨[], by decide⟩, closingString, ⟨[], by decide⟩⟩⟩ []
  rest := [' ', '%', '}']

/-- The default ends at the parenthesis in the string. -/
theorem not_recovered_closingDefinition : ¬ ∀ definition, Recovered definition := by
  intro hclaim
  have hsignature := (hclaim closingDefinition).signature
  exact absurd hsignature (by decide)

end DbtCraft.Services.MacroSignature

/-
# Stripping selections

`stripModelSelection` of `features/develop/model/run-options.ts` beside `shlex.split`, which
reads the command at the runner. The pattern looks at characters: it begins at each `-s` and
`--select` that a value follows, takes one value, and all white space is collapsed afterwards,
in quotes or not. Where this takes words and nothing else, the words that are left are the others.

A command without quotes and backslashes, in which the shell and JavaScript know the same white
space, is its words. There nothing else will do: a word that is cut or left too many is never
made good by what comes after it.
-/

import DbtCraft.Python.Shlex
import DbtCraft.Web.RunOptions
import Mathlib.Data.List.TakeWhile

namespace DbtCraft.Web.RunOptions

open DbtCraft.Python
open DbtCraft.Server.Proxy (isWhiteSpace)
open DbtCraft.Services.DbtArgv (isFlag)

/-- An option of selection, with or without a value behind `=`. -/
def isSelection (token : String) : Bool := isFlag token "--select" || isFlag token "-s"

def isOption (token : String) : Bool := startsWith token "-"

/-- The tokens without the selections and all their values, behind one or not. A value ends
where the next option begins. -/
def otherTokens : Bool → List String → List String
  | _, [] => []
  | valued, token :: rest =>
    if isSelection token then otherTokens true rest
    else if valued && !isOption token then otherTokens true rest
    else token :: otherTokens false rest

/-- Stripping a command takes away its selections and nothing else. -/
def StripsSelections (command : String) : Prop :=
  ∀ tokens, shlexSplit command = .ok tokens →
    shlexSplit (stripModelSelection command) = .ok (otherTokens false tokens)

/-- The words between white space. -/
def wordsOf (text : List Char) : List (List Char) := (text.splitOnP isWhiteSpace).filter (· ≠ [])

/-- White space collapsed to single blanks, and none at the ends. -/
def collapsed (text : List Char) : List Char := [' '].intercalate (wordsOf text)

/-- A text that the pattern takes apart as the shell does. Behind a selection (`valued`) the
next word is an option. -/
inductive Separable : Bool → List Char → Prop
  | nil {valued : Bool} : Separable valued []
  | blank {valued : Bool} {c : Char} {text : List Char} (hblank : isShlexSpace c = true)
      (htext : Separable valued text) : Separable valued (c :: text)
  | /-- Another word: the pattern begins nowhere in it, and its white space is single blanks. -/
    word {valued : Bool} {raw text : List Char} {token : String}
      (htoken : shlexOf raw = .ok [token]) (hother : isSelection token = false)
      (hoption : valued = true → isOption token = true) (htidy : collapsed raw = raw)
      (hquiet : ∀ after ∈ raw.tails, after ≠ [] → afterSelection (after ++ text) = none)
      (hend : ∀ c ∈ text.head?, isShlexSpace c = true) (htext : Separable false text) :
      Separable valued (raw ++ text)
  | /-- A selection and its value: the pattern takes them and nothing behind. -/
    selection {valued : Bool} {raw text : List Char} {flag : String} {values : List String}
      (htokens : shlexOf raw = .ok (flag :: values)) (hflag : isSelection flag = true)
      (hvalues : ∀ value ∈ values, isOption value = false ∨ isSelection value = true)
      (htaken : afterSelection (raw ++ text) = some text)
      (hend : ∀ c ∈ text.head?, isShlexSpace c = true) (htext : Separable true text) :
      Separable valued (raw ++ text)

/-! ## Words -/

variable {text rest left raw : List Char} {c : Char} {valued : Bool} {tokens : List String}

theorem wordsOf_append (hc : isWhiteSpace c = true) :
    wordsOf (text ++ c :: rest) = wordsOf text ++ wordsOf rest := by
  rw [wordsOf, List.splitOnP_append_cons text rest hc, List.filter_append]
  rfl

theorem wordsOf_nil : wordsOf [] = [] := by
  simp [wordsOf]

theorem wordsOf_cons (hc : isWhiteSpace c = true) : wordsOf (c :: rest) = wordsOf rest := by
  have happend : wordsOf ([] ++ c :: rest) = wordsOf [] ++ wordsOf rest := wordsOf_append hc
  rw [wordsOf_nil] at happend
  exact happend

theorem intercalate_append {separator : List Char} {first second : List (List Char)}
    (hfirst : first ≠ []) (hsecond : second ≠ []) :
    separator.intercalate (first ++ second) =
      separator.intercalate first ++ (separator ++ separator.intercalate second) := by
  induction first with
  | nil => exact absurd rfl hfirst
  | cons word first ih =>
    cases first with
    | nil =>
      rw [List.singleton_append, List.intercalate_cons_of_ne_nil hsecond,
        List.intercalate_singleton, List.append_assoc]
    | cons next first =>
      have htail := ih (List.cons_ne_nil next first)
      rw [List.cons_append] at htail ⊢
      rw [List.cons_append, List.intercalate_cons_cons, htail, List.intercalate_cons_cons]
      simp only [List.append_assoc]

/-- A tidy word in front of white space stays in front of a blank. -/
theorem collapsed_append (hc : isWhiteSpace c = true) (htidy : collapsed raw = raw)
    (hraw : raw ≠ []) :
    collapsed (raw ++ c :: rest) =
      if wordsOf rest = [] then raw else raw ++ ' ' :: collapsed rest := by
  have hwords : wordsOf raw ≠ [] := by
    intro hnone
    rw [collapsed, hnone] at htidy
    exact hraw htidy.symm
  rw [collapsed, wordsOf_append hc]
  split
  next hnone =>
    rw [hnone, List.append_nil]
    exact htidy
  next hsome =>
    rw [intercalate_append hwords hsome]
    exact congrArg (· ++ ' ' :: collapsed rest) htidy

/-! ## The pattern -/

/-- What the pattern leaves. -/
def removed (text : List Char) : List Char := withoutSelection text.length text

theorem suffix_of_afterValue (hleft : afterValue text = some left) : left <:+ text.tail := by
  cases text with
  | nil => cases hleft
  | cons first rest =>
    rw [afterValue] at hleft
    split at hleft
    · rw [← Option.some_inj.mp hleft]
      exact (List.drop_suffix 1 _).trans (List.dropWhile_suffix _)
    · split at hleft
      · cases hleft
      · rw [← Option.some_inj.mp hleft]
        exact List.dropWhile_suffix _

/-- A match takes some of the text. -/
theorem suffix_of_afterSelection (hleft : afterSelection text = some left) :
    left <:+ text.tail := by
  obtain ⟨flag, hflag, hvalue⟩ := Option.bind_eq_some_iff.mp hleft
  have hsome : flag.length = flag.length - 1 + 1 := by
    have hmem := List.mem_of_find?_eq_some hflag
    simp only [List.mem_cons, List.not_mem_nil, or_false] at hmem
    rcases hmem with hsame | hsame <;> rw [hsame] <;> rfl
  have hdrop : text.drop flag.length <:+ text.tail := by
    rw [hsome, ← List.drop_tail]
    exact List.drop_suffix _ _
  split at hvalue
  next value hsame =>
    rw [hsame] at hdrop
    exact (suffix_of_afterValue hvalue).trans
      ((List.tail_suffix _).trans ((List.suffix_cons _ _).trans hdrop))
  next first rest _ hsame =>
    rw [hsame] at hdrop
    split at hvalue
    · exact (suffix_of_afterValue hvalue).trans ((List.tail_suffix _).trans
        ((List.dropWhile_suffix _).trans ((List.suffix_cons _ _).trans hdrop)))
    · cases hvalue
  · cases hvalue

theorem length_afterSelection {first : Char} (hleft : afterSelection (first :: rest) = some left) :
    left.length ≤ rest.length := (suffix_of_afterSelection hleft).length_le

/-- As many steps as the text is long are always enough. -/
theorem withoutSelection_eq_removed {count : ℕ} (hcount : text.length ≤ count) :
    withoutSelection count text = removed text := by
  induction count using Nat.strong_induction_on generalizing text with
  | h count ih =>
    cases text with
    | nil => cases count <;> rfl
    | cons first rest =>
      obtain ⟨count, rfl⟩ := Nat.exists_eq_succ_of_ne_zero
        (Nat.ne_of_gt (Nat.zero_lt_of_lt hcount))
      rw [List.length_cons] at hcount
      have hsame {left : List Char} (hleft : left.length ≤ rest.length) :
          withoutSelection count left = withoutSelection rest.length left :=
        (ih count (Nat.lt_succ_self count) (by omega)).trans
          (ih rest.length (by omega) hleft).symm
      rw [removed, List.length_cons, withoutSelection, withoutSelection]
      cases hafter : afterSelection (first :: rest) with
      | none => simp only [hsame (Nat.le_refl _)]
      | some left =>
        simp only [hsame (length_afterSelection hafter)]

theorem removed_of_none {first : Char} (hnone : afterSelection (first :: rest) = none) :
    removed (first :: rest) = first :: removed rest := by
  rw [removed, List.length_cons, withoutSelection, hnone]
  rfl

theorem removed_of_some (hsome : afterSelection text = some left) : removed text = removed left := by
  cases text with
  | nil => cases hsome
  | cons first rest =>
    rw [removed, List.length_cons, withoutSelection, hsome]
    exact withoutSelection_eq_removed (length_afterSelection hsome)

theorem removed_subset (text : List Char) : removed text ⊆ text := by
  induction hsize : text.length using Nat.strong_induction_on generalizing text with
  | _ size ih =>
    subst hsize
    cases text with
    | nil => exact List.Subset.refl _
    | cons first rest =>
      cases hafter : afterSelection (first :: rest) with
      | none =>
        rw [removed_of_none hafter]
        exact List.cons_subset_cons _ (ih rest.length (Nat.lt_succ_self _) rest rfl)
      | some left =>
        have hleft := suffix_of_afterSelection hafter
        rw [removed_of_some hafter]
        exact List.Subset.trans (ih left.length (Nat.lt_succ_of_le hleft.length_le) left rfl)
          (List.Subset.trans hleft.subset (List.subset_cons_self _ _))

/-- A part in which the pattern does not begin is kept. -/
theorem removed_append
    (hquiet : ∀ after ∈ raw.tails, after ≠ [] → afterSelection (after ++ text) = none) :
    removed (raw ++ text) = raw ++ removed text := by
  induction raw with
  | nil => rfl
  | cons first raw ih =>
    rw [List.tails_cons, List.forall_mem_cons] at hquiet
    have hhead : afterSelection (first :: (raw ++ text)) = none :=
      hquiet.1 (List.cons_ne_nil first raw)
    have htail := ih hquiet.2
    rw [List.cons_append, removed_of_none hhead, htail, List.cons_append]

theorem removed_blank (hblank : isShlexSpace c = true) : removed (c :: text) = c :: removed text := by
  apply removed_of_none
  have hc : c ≠ '-' := by
    intro hsame
    rw [hsame] at hblank
    exact absurd hblank (by decide)
  have hflags : (["--select", "-s"].find? fun flag => flag.toList.isPrefixOf (c :: text)) = none := by
    simp [List.isPrefixOf, Ne.symm hc]
  rw [afterSelection, hflags]
  rfl

theorem isWhiteSpace_of_isShlexSpace (hblank : isShlexSpace c = true) : isWhiteSpace c = true := by
  simp only [isShlexSpace, Bool.or_eq_true, decide_eq_true_eq] at hblank
  rcases hblank with ((hc | hc) | hc) | hc <;> rw [hc] <;> decide

theorem toList_stripModelSelection (command : String) :
    (stripModelSelection command).toList = collapsed (removed command.toList) := by
  have hblank : " ".toList = [' '] := by decide
  have hwords (text : List Char) : (words (String.ofList text)).map String.toList = wordsOf text := by
    have hmap : (String.toList ∘ String.ofList) = id := funext fun _ => String.toList_ofList
    rw [words, List.map_map, String.toList_ofList, wordsOf, hmap, List.map_id]
  rw [stripModelSelection, String.toList_intercalate, hwords, collapsed, removed, hblank]

/-! ## Tokens -/

theorem otherTokens_selection {flag : String} (hflag : isSelection flag = true) :
    otherTokens valued (flag :: tokens) = otherTokens true tokens := by
  rw [otherTokens, if_pos hflag]

/-- Values behind a selection go with it. -/
theorem otherTokens_values {values : List String}
    (hvalues : ∀ value ∈ values, isOption value = false ∨ isSelection value = true) :
    otherTokens true (values ++ tokens) = otherTokens true tokens := by
  induction values with
  | nil => rfl
  | cons value values ih =>
    obtain ⟨hvalue, hrest⟩ := List.forall_mem_cons.mp hvalues
    rw [List.cons_append, otherTokens, ih hrest]
    rcases hvalue with hplain | hselection
    · rw [hplain]
      simp
    · rw [if_pos hselection]

theorem otherTokens_other {token : String} (hother : isSelection token = false)
    (hoption : valued = true → isOption token = true) :
    otherTokens valued (token :: tokens) = token :: otherTokens false tokens := by
  have hkept : (valued && !isOption token) = false := by
    cases valued with
    | false => rfl
    | true => rw [hoption rfl, Bool.not_true, Bool.and_false]
  rw [otherTokens, hother, hkept]
  rfl

theorem shlexOf_blank (hblank : isShlexSpace c = true) : shlexOf (c :: text) = shlexOf text := by
  rw [shlexOf, shlexWords, if_pos hblank, shlexOf]

/-- The words of a text that begins with complete words. -/
theorem shlexOf_append {words others : List String} (hraw : shlexOf raw = .ok words)
    (hend : ∀ c ∈ text.head?, isShlexSpace c = true) (htext : shlexOf text = .ok others) :
    shlexOf (raw ++ text) = .ok (words ++ others) := by
  cases text with
  | nil =>
    have hothers : others = [] := (Except.ok.inj htext).symm
    rw [List.append_nil, hothers, List.append_nil, hraw]
  | cons c text =>
    have hblank := hend c rfl
    rw [shlexOf_blank hblank] at htext
    rw [shlexOf, shlexWords_append hblank (fun _ => ⟨rfl, rfl⟩) hraw, htext]
    rfl

/-- **A separable text is stripped of its selections.** -/
theorem Separable.strips (htext : Separable valued text) : ∃ tokens, shlexOf text = .ok tokens ∧
    shlexOf (collapsed (removed text)) = .ok (otherTokens valued tokens) := by
  induction htext with
  | nil =>
    refine ⟨[], rfl, ?_⟩
    rw [show removed [] = [] from rfl, collapsed, wordsOf_nil]
    rfl
  | blank hblank _ ih =>
    obtain ⟨tokens, htokens, hstripped⟩ := ih
    refine ⟨tokens, (shlexOf_blank hblank).trans htokens, ?_⟩
    rw [removed_blank hblank, collapsed, wordsOf_cons (isWhiteSpace_of_isShlexSpace hblank)]
    exact hstripped
  | @word valued raw text token htoken hother hoption htidy hquiet hend _ ih =>
    obtain ⟨tokens, htokens, hstripped⟩ := ih
    refine ⟨token :: tokens, shlexOf_append htoken hend htokens, ?_⟩
    rw [removed_append hquiet, otherTokens_other hother hoption]
    cases text with
    | nil =>
      have hnone : tokens = [] := (Except.ok.inj htokens).symm
      rw [show removed [] = [] from rfl, List.append_nil, htidy, htoken, hnone]
      rfl
    | cons c text =>
      have hblank := hend c rfl
      have hspace := isWhiteSpace_of_isShlexSpace hblank
      have hraw : raw ≠ [] := by
        intro hnone
        rw [hnone] at htoken
        cases htoken
      rw [removed_blank hblank, collapsed, wordsOf_cons hspace, ← collapsed] at hstripped
      rw [removed_blank hblank, collapsed_append hspace htidy hraw]
      split
      next hnone =>
        rw [collapsed, hnone] at hstripped
        rw [htoken, ← Except.ok.inj hstripped]
      · exact shlexOf_append htoken (fun d hd => by cases hd; rfl)
          ((shlexOf_blank rfl).trans hstripped)
  | selection htokens hflag hvalues htaken hend _ ih =>
    obtain ⟨tokens, hrest, hstripped⟩ := ih
    refine ⟨_, shlexOf_append htokens hend hrest, ?_⟩
    rw [removed_of_some htaken, List.cons_append, otherTokens_selection hflag,
      otherTokens_values hvalues]
    exact hstripped

-- In quotes as well, and up to the quote that closes them.
example : stripModelSelection "test --vars 'a  -s b' -s c" = "test --vars 'a" := by decide +kernel

/-! ## Plain commands -/

/-- A character of a plain word. -/
def isWordChar (c : Char) : Bool := isPlain c && !isWhiteSpace c

/-- Words without quotes and backslashes, and white space of the shell. -/
def isPlainText (text : List Char) : Bool := text.all fun c => isShlexSpace c || isWordChar c

/-- The words of a plain text. -/
inductive Spelled : List Char → List (List Char) → Prop
  | nil : Spelled [] []
  | blank {c : Char} {text : List Char} {ws : List (List Char)} (hblank : isShlexSpace c = true)
      (htext : Spelled text ws) : Spelled (c :: text) ws
  | word {w text : List Char} {ws : List (List Char)} (hne : w ≠ [])
      (hword : ∀ c ∈ w, isWordChar c = true) (hend : ∀ c ∈ text.head?, isShlexSpace c = true)
      (htext : Spelled text ws) : Spelled (w ++ text) (w :: ws)

/-- The words as `shlex` gives them. -/
def spoken (ws : List (List Char)) : List String := ws.map String.ofList

variable {w : List Char} {ws : List (List Char)}

/-! ## Spelling -/

theorem not_blank_of_isWordChar (hc : isWordChar c = true) :
    isShlexSpace c = false ∧ isWhiteSpace c = false := by
  simp only [isWordChar, isPlain, Bool.and_eq_true, Bool.not_eq_true'] at hc
  exact ⟨hc.1.1.1, hc.2⟩

theorem Spelled.cons (hc : isWordChar c = true) (htext : Spelled text ws) :
    ∃ ws', Spelled (c :: text) ws' := by
  have hsingle : ∀ d ∈ [c], isWordChar d = true := by
    intro d hd
    rw [List.mem_singleton.mp hd]
    exact hc
  cases htext with
  | nil => exact ⟨_, .word (List.cons_ne_nil c []) hsingle nofun .nil⟩
  | @blank d rest _ hblank hrest =>
    have hend : ∀ e ∈ (d :: rest).head?, isShlexSpace e = true := by
      intro e he
      rw [← Option.some_inj.mp he]
      exact hblank
    exact ⟨_, .word (List.cons_ne_nil c []) hsingle hend (.blank hblank hrest)⟩
  | word hne hword hend hrest =>
    exact ⟨_, .word (List.cons_ne_nil c _)
      (fun d hd => (List.mem_cons.mp hd).elim (fun hsame => hsame ▸ hc) (hword d)) hend hrest⟩

theorem exists_spelled (hplain : isPlainText text = true) : ∃ ws, Spelled text ws := by
  induction text with
  | nil => exact ⟨[], .nil⟩
  | cons c text ih =>
    obtain ⟨hc, htext⟩ := Bool.and_eq_true_iff.mp hplain
    obtain ⟨ws, hws⟩ := ih htext
    rcases Bool.or_eq_true_iff.mp hc with hblank | hword
    · exact ⟨ws, .blank hblank hws⟩
    · exact hws.cons hword

theorem Spelled.blanks {blanks : List Char} (hblanks : ∀ c ∈ blanks, isShlexSpace c = true)
    (htext : Spelled text ws) : Spelled (blanks ++ text) ws := by
  induction blanks with
  | nil => exact htext
  | cons c blanks ih =>
    obtain ⟨hc, hrest⟩ := List.forall_mem_cons.mp hblanks
    exact .blank hc (ih hrest)

/-- The first word of a text and what stands around it. -/
theorem Spelled.split (htext : Spelled text ws) :
    (ws = [] ∧ ∀ c ∈ text, isShlexSpace c = true) ∨ ∃ blanks w rest ws',
      text = blanks ++ (w ++ rest) ∧ ws = w :: ws' ∧ (∀ c ∈ blanks, isShlexSpace c = true) ∧
        w ≠ [] ∧ (∀ c ∈ w, isWordChar c = true) ∧ (∀ c ∈ rest.head?, isShlexSpace c = true) ∧
          Spelled rest ws' := by
  induction htext with
  | nil => exact Or.inl ⟨rfl, nofun⟩
  | @blank c text ws hblank _ ih =>
    rcases ih with ⟨hws, hall⟩ | ⟨blanks, w, rest, ws', htext, hws, hblanks, hfacts⟩
    · exact Or.inl ⟨hws, List.forall_mem_cons.mpr ⟨hblank, hall⟩⟩
    · exact Or.inr ⟨c :: blanks, w, rest, ws', by rw [htext, List.cons_append], hws,
        List.forall_mem_cons.mpr ⟨hblank, hblanks⟩, hfacts⟩
  | @word w text ws hne hword hend htext _ =>
    exact Or.inr ⟨[], w, text, ws, rfl, rfl, nofun, hne, hword, hend, htext⟩

theorem wordsOf_of_word (hne : w ≠ []) (hword : ∀ c ∈ w, isWordChar c = true) : wordsOf w = [w] := by
  rw [wordsOf, List.splitOnP_eq_singleton fun c hc => (not_blank_of_isWordChar (hword c hc)).2]
  simp [hne]

theorem wordsOf_word_append (hne : w ≠ []) (hword : ∀ c ∈ w, isWordChar c = true)
    (hend : ∀ c ∈ rest.head?, isShlexSpace c = true) :
    wordsOf (w ++ rest) = w :: wordsOf rest := by
  cases rest with
  | nil => rw [List.append_nil, wordsOf_of_word hne hword, wordsOf_nil]
  | cons c rest =>
    have hspace := isWhiteSpace_of_isShlexSpace (hend c rfl)
    rw [wordsOf_append hspace, wordsOf_of_word hne hword, wordsOf_cons hspace]
    rfl

theorem Spelled.wordsOf_eq (htext : Spelled text ws) : wordsOf text = ws := by
  induction htext with
  | nil => exact wordsOf_nil
  | blank hblank _ ih => rw [wordsOf_cons (isWhiteSpace_of_isShlexSpace hblank), ih]
  | word hne hword hend _ ih => rw [wordsOf_word_append hne hword hend, ih]

theorem shlexOf_word (hne : w ≠ []) (hword : ∀ c ∈ w, isWordChar c = true) :
    shlexOf w = .ok [String.ofList w] :=
  shlexOf_plain hne fun c hc => (Bool.and_eq_true_iff.mp (hword c hc)).1

theorem Spelled.shlexOf_eq (htext : Spelled text ws) : shlexOf text = .ok (spoken ws) := by
  induction htext with
  | nil => rfl
  | blank hblank _ ih => rw [shlexOf_blank hblank, ih]
  | word hne hword hend _ ih => exact shlexOf_append (shlexOf_word hne hword) hend ih

theorem Spelled.word_of_mem (htext : Spelled text ws) (hmem : w ∈ ws) :
    w ≠ [] ∧ ∀ c ∈ w, isWordChar c = true := by
  induction htext with
  | nil => cases hmem
  | blank _ _ ih => exact ih hmem
  | word hne hword _ _ ih =>
    rcases List.mem_cons.mp hmem with hsame | hrest
    · rw [hsame]
      exact ⟨hne, hword⟩
    · exact ih hrest

/-- Plain words with a blank between them are read as they are. -/
theorem shlexOf_intercalate (hws : ∀ w ∈ ws, w ≠ [] ∧ ∀ c ∈ w, isWordChar c = true) :
    shlexOf ([' '].intercalate ws) = .ok (spoken ws) := by
  induction ws with
  | nil => rfl
  | cons w ws ih =>
    obtain ⟨⟨hne, hword⟩, hrest⟩ := List.forall_mem_cons.mp hws
    cases ws with
    | nil =>
      rw [List.intercalate_singleton]
      exact shlexOf_word hne hword
    | cons next ws =>
      rw [List.intercalate_cons_cons, List.append_assoc]
      exact shlexOf_append (shlexOf_word hne hword) (fun c hc => by cases hc; rfl)
        ((shlexOf_blank rfl).trans (ih hrest))

/-- What is read of a plain text when it is stripped. -/
theorem shlexOf_collapsed (hplain : isPlainText text = true) :
    shlexOf (collapsed (removed text)) = .ok (spoken (wordsOf (removed text))) := by
  have hremoved : isPlainText (removed text) = true :=
    List.all_eq_true.mpr fun c hc => List.all_eq_true.mp hplain c (removed_subset text hc)
  obtain ⟨ws, hws⟩ := exists_spelled hremoved
  rw [collapsed, hws.wordsOf_eq]
  exact shlexOf_intercalate fun w hw => hws.word_of_mem hw

/-! ## Matches in words -/

/-- The flags of the pattern. -/
def flags : List String := ["--select", "-s"]

theorem not_blank_of_mem_flag :
    ∀ flag ∈ flags, ∀ c ∈ flag.toList, isShlexSpace c = false ∧ c ≠ '=' := by
  decide

theorem exists_flag (hleft : afterSelection text = some left) :
    ∃ flag ∈ flags, ∃ rest, text = flag.toList ++ rest := by
  obtain ⟨flag, hflag, -⟩ := Option.bind_eq_some_iff.mp hleft
  have hprefix : flag.toList.isPrefixOf text = true :=
    List.find?_some (p := fun flag : String => flag.toList.isPrefixOf text) hflag
  obtain ⟨rest, htext⟩ := List.isPrefixOf_iff_prefix.mp hprefix
  exact ⟨flag, List.mem_of_find?_eq_some hflag, rest, htext.symm⟩

/-- The pattern behind a flag. -/
theorem afterSelection_flag {flag : String} (hflag : flag ∈ flags) (rest : List Char) :
    afterSelection (flag.toList ++ rest) =
      match rest with
      | '=' :: value => afterValue value
      | first :: rest => if isWhiteSpace first then afterValue (rest.dropWhile isWhiteSpace) else none
      | [] => none := by
  simp only [flags, List.mem_cons, List.not_mem_nil, or_false] at hflag
  rcases hflag with hsame | hsame <;> rw [hsame] <;> rfl

theorem shlexOf_flag {flag : String} (hflag : flag ∈ flags) : shlexOf flag.toList = .ok [flag] := by
  simp only [flags, List.mem_cons, List.not_mem_nil, or_false] at hflag
  rcases hflag with hsame | hsame <;> rw [hsame] <;> rfl

/-- A plain value goes up to the next white space. -/
theorem afterValue_word (hne : w ≠ []) (hword : ∀ c ∈ w, isWordChar c = true)
    (hend : ∀ c ∈ rest.head?, isShlexSpace c = true) : afterValue (w ++ rest) = some rest := by
  cases w with
  | nil => exact absurd rfl hne
  | cons first w =>
    obtain ⟨hfirst, hw⟩ := List.forall_mem_cons.mp hword
    have hquote : ¬ (first = '\'' ∨ first = '"') := by
      intro hquote
      rcases hquote with hsame | hsame <;> rw [hsame] at hfirst <;> exact absurd hfirst (by decide)
    have hrest : (w ++ rest).dropWhile (fun c => !isWhiteSpace c) = rest := by
      rw [List.dropWhile_append_of_pos fun c hc => by rw [(not_blank_of_isWordChar (hw c hc)).2]; rfl]
      cases rest with
      | nil => rfl
      | cons c rest =>
        have hspace := isWhiteSpace_of_isShlexSpace (hend c rfl)
        rw [List.dropWhile_cons_of_neg (by rw [hspace]; decide)]
    rw [List.cons_append, afterValue, if_neg fun h => hquote h.1,
      if_neg (by rw [(not_blank_of_isWordChar hfirst).2]; decide), hrest]

/-- There is no value where white space stands or nothing. -/
theorem afterValue_blank (hend : ∀ c ∈ text.head?, isShlexSpace c = true) :
    afterValue text = none := by
  cases text with
  | nil => rfl
  | cons first rest =>
    have hblank := hend first rfl
    have hquote : ¬ (first = '\'' ∨ first = '"') := by
      intro hquote
      rcases hquote with hsame | hsame <;> rw [hsame] at hblank <;>
        exact absurd hblank (by decide)
    rw [afterValue, if_neg fun h => hquote h.1, if_pos (isWhiteSpace_of_isShlexSpace hblank)]

/-- A value behind `=` is all that a match takes. -/
theorem afterSelection_attached {flag : String} (hflag : flag ∈ flags) {value : List Char}
    (hne : value ≠ []) (hword : ∀ c ∈ value, isWordChar c = true)
    (hend : ∀ c ∈ rest.head?, isShlexSpace c = true) :
    afterSelection ((flag.toList ++ '=' :: value) ++ rest) = some rest := by
  rw [List.append_assoc, afterSelection_flag hflag]
  exact afterValue_word hne hword hend

/-- A flag that ends a word is followed by the next word, if there is one. -/
theorem afterSelection_next {flag : String} (hflag : flag ∈ flags) (hrest : Spelled rest ws)
    (hend : ∀ c ∈ rest.head?, isShlexSpace c = true)
    (hleft : afterSelection (flag.toList ++ rest) = some left) :
    ∃ before v ws', rest = before ++ left ∧ ws = v :: ws' ∧
      (∀ c ∈ left.head?, isShlexSpace c = true) ∧ Spelled left ws' ∧
        shlexOf (flag.toList ++ before) = .ok [flag, String.ofList v] := by
  rw [afterSelection_flag hflag] at hleft
  split at hleft
  · exact absurd (hend '=' rfl) (by decide)
  next first others _ =>
    rw [if_pos (isWhiteSpace_of_isShlexSpace (hend first rfl))] at hleft
    have hspaces : ∀ {blanks : List Char}, (∀ c ∈ blanks, isShlexSpace c = true) →
        ∀ c ∈ blanks, isWhiteSpace c = true := fun hblanks c hc =>
      isWhiteSpace_of_isShlexSpace (hblanks c hc)
    rcases hrest.split with ⟨-, hall⟩ | ⟨blanks, v, later, ws', htext, hws, hblanks, hne, hword,
      hlater, hspelled⟩
    · have hothers := fun c hc => hspaces hall c (List.mem_cons_of_mem first hc)
      rw [List.dropWhile_eq_nil_iff.mpr hothers] at hleft
      cases hleft
    · cases blanks with
      | nil =>
        cases v with
        | nil => exact absurd rfl hne
        | cons c v =>
          have hc := (not_blank_of_isWordChar (hword c List.mem_cons_self)).1
          rw [← (List.cons.inj htext).1, hend first rfl] at hc
          cases hc
      | cons b blanks =>
        have hothers : others = blanks ++ (v ++ later) := (List.cons.inj htext).2
        have hdrop : others.dropWhile isWhiteSpace = v ++ later := by
          rw [hothers, List.dropWhile_append_of_pos
            (hspaces (List.forall_mem_cons.mp hblanks).2)]
          cases v with
          | nil => exact absurd rfl hne
          | cons c v =>
            have hc := (not_blank_of_isWordChar (hword c List.mem_cons_self)).2
            rw [List.cons_append, List.dropWhile_cons_of_neg (by rw [hc]; decide)]
        rw [hdrop, afterValue_word hne hword hlater] at hleft
        have hsame := Option.some_inj.mp hleft
        rw [hsame] at hlater hspelled htext
        refine ⟨b :: blanks ++ v, v, ws', by rw [htext, List.append_assoc], hws, hlater,
          hspelled, ?_⟩
        have hvalue : Spelled (b :: blanks ++ v) [v] := by
          have hlast : Spelled (v ++ []) [v] :=
            .word hne hword (fun c hc => absurd hc (Option.not_mem_none c)) .nil
          rw [List.append_nil] at hlast
          exact hlast.blanks hblanks
        exact shlexOf_append (shlexOf_flag hflag)
          (fun c hc => Option.some_inj.mp hc ▸ hblanks b List.mem_cons_self) hvalue.shlexOf_eq
  · cases hleft

/-- A match that begins in a word takes a value that is attached to it, or the next word. -/
theorem afterSelection_word (hword : ∀ c ∈ w, isWordChar c = true)
    (hend : ∀ c ∈ rest.head?, isShlexSpace c = true)
    (hleft : afterSelection (w ++ rest) = some left) :
    ∃ flag ∈ flags, (∃ value, w = flag.toList ++ '=' :: value ∧ value ≠ [] ∧ left = rest) ∨
      w = flag.toList := by
  obtain ⟨flag, hflag, others, htext⟩ := exists_flag hleft
  refine ⟨flag, hflag, ?_⟩
  rw [htext, afterSelection_flag hflag] at hleft
  rcases List.append_eq_append_iff.mp htext with ⟨more, hsame, hrest⟩ | ⟨tail, hw, hothers⟩
  · -- White space ends the word, and none stands in a flag.
    cases more with
    | nil =>
      rw [List.append_nil] at hsame
      exact Or.inr hsame.symm
    | cons c more =>
      have hblank := hend c (by rw [hrest]; rfl)
      have hc : c ∈ flag.toList := by
        rw [hsame]
        exact List.mem_append_right w List.mem_cons_self
      exact absurd (hblank.symm.trans (not_blank_of_mem_flag flag hflag c hc).1) (by decide)
  · cases tail with
    | nil =>
      rw [List.append_nil] at hw
      exact Or.inr hw
    | cons c tail =>
      have hc := hword c (by rw [hw]; exact List.mem_append_right _ List.mem_cons_self)
      have htail : ∀ d ∈ tail, isWordChar d = true := fun d hd =>
        hword d (by rw [hw]; exact List.mem_append_right _ (List.mem_cons_of_mem c hd))
      rw [hothers] at hleft
      split at hleft
      next value hsame =>
        obtain ⟨hequals, hvalue⟩ : c = '=' ∧ tail ++ rest = value := List.cons.inj hsame
        rw [← hvalue] at hleft
        cases tail with
        | nil =>
          rw [List.nil_append, afterValue_blank hend] at hleft
          cases hleft
        | cons d tail =>
          rw [afterValue_word (List.cons_ne_nil d tail) htail hend] at hleft
          exact Or.inl ⟨d :: tail, by rw [hw, hequals], List.cons_ne_nil d tail,
            (Option.some_inj.mp hleft).symm⟩
      next first _ _ hsame =>
        have hfirst := (not_blank_of_isWordChar hc).2
        rw [(List.cons.inj hsame).1] at hfirst
        rw [hfirst] at hleft
        cases hleft
      next hsame => cases hsame

/-- The pattern begins nowhere in a word, or somewhere first. -/
theorem quiet_or_first (w rest : List Char) :
    (∀ after ∈ w.tails, after ≠ [] → afterSelection (after ++ rest) = none) ∨
      ∃ before after left, w = before ++ after ∧ after ≠ [] ∧
        afterSelection (after ++ rest) = some left ∧
          removed (w ++ rest) = before ++ removed left ∧
            (before ≠ [] → afterSelection (w ++ rest) = none) := by
  induction w with
  | nil => exact Or.inl fun after hafter hne => absurd (List.mem_singleton.mp hafter) hne
  | cons c w ih =>
    cases hmatch : afterSelection (c :: (w ++ rest)) with
    | some left =>
      exact Or.inr ⟨[], c :: w, left, rfl, List.cons_ne_nil c w, hmatch,
        removed_of_some hmatch, fun hne => absurd rfl hne⟩
    | none =>
      rcases ih with hquiet | ⟨before, after, left, hw, hne, hafter, hremoved, -⟩
      · left
        rw [List.tails_cons, List.forall_mem_cons]
        exact ⟨fun _ => hmatch, hquiet⟩
      · refine Or.inr ⟨c :: before, after, left, by rw [hw, List.cons_append], hne, hafter, ?_,
          fun _ => hmatch⟩
        rw [List.cons_append, removed_of_none hmatch, hremoved, List.cons_append]

/-! ## Tokens of words -/

theorem isOption_ofList (w : List Char) : isOption (String.ofList w) = ['-'].isPrefixOf w := by
  simp [isOption, startsWith]

theorem isOption_append {before : List Char} (hbefore : before ≠ []) (after : List Char) :
    isOption (String.ofList (before ++ after)) = isOption (String.ofList before) := by
  cases before with
  | nil => exact absurd rfl hbefore
  | cons c before =>
    rw [isOption_ofList, isOption_ofList]
    rfl

theorem isFlag_ofList {flag : String} (hflag : isFlag (String.ofList w) flag = true) :
    w = flag.toList ∨ ∃ value, w = flag.toList ++ '=' :: value := by
  rcases Bool.or_eq_true_iff.mp hflag with hsame | hstarts
  · left
    rw [← of_decide_eq_true hsame, String.toList_ofList]
  · right
    obtain ⟨value, hw⟩ := List.isPrefixOf_iff_prefix.mp hstarts
    rw [String.toList_ofList, String.toList_append] at hw
    exact ⟨value, by rw [← hw, List.append_assoc]; rfl⟩

theorem isSelection_ofList (hselection : isSelection (String.ofList w) = true) :
    ∃ flag ∈ flags, w = flag.toList ∨ ∃ value, w = flag.toList ++ '=' :: value := by
  rcases Bool.or_eq_true_iff.mp hselection with hflag | hflag
  · exact ⟨"--select", List.mem_cons_self, isFlag_ofList hflag⟩
  · exact ⟨"-s", List.mem_cons_of_mem _ List.mem_cons_self, isFlag_ofList hflag⟩

theorem isSelection_of_flag {flag : String} (hflag : flag ∈ flags) : isSelection flag = true := by
  simp only [flags, List.mem_cons, List.not_mem_nil, or_false] at hflag
  rcases hflag with hsame | hsame <;> rw [hsame] <;> decide

theorem isSelection_attached {flag : String} (hflag : flag ∈ flags) (value : List Char) :
    isSelection (String.ofList (flag.toList ++ '=' :: value)) = true := by
  have hstarts (flag : String) :
      isFlag (String.ofList (flag.toList ++ '=' :: value)) flag = true := by
    simp [isFlag, startsWith, String.toList_append]
  simp only [flags, List.mem_cons, List.not_mem_nil, or_false] at hflag
  rcases hflag with hsame | hsame <;> rw [hsame, isSelection, hstarts]
  · rfl
  · exact Bool.or_true _

theorem eq_of_flag_suffix : ∀ flag ∈ flags, ∀ other ∈ flags,
    (other.toList <:+ flag.toList → other = flag) ∧ ¬ other.toList <:+ flag.toList ++ ['='] := by
  decide

/-- In a selection the pattern begins at the front or nowhere. -/
theorem before_eq_nil {before after : List Char} (hselection : isSelection (String.ofList w) = true)
    (hword : ∀ c ∈ w, isWordChar c = true) (hend : ∀ c ∈ rest.head?, isShlexSpace c = true)
    (hw : w = before ++ after) (hafter : afterSelection (after ++ rest) = some left)
    (hfront : before ≠ [] → afterSelection (w ++ rest) = none) : before = [] := by
  by_contra hbefore
  have hmatch := afterSelection_word
    (fun c hc => hword c (by rw [hw]; exact List.mem_append_right before hc)) hend hafter
  obtain ⟨other, hother, hform⟩ := hmatch
  obtain ⟨flag, hflag, hsame | ⟨value, hsame⟩⟩ := isSelection_ofList hselection
  · -- The word is a flag: no other flag ends it, and it has no `=`.
    rcases hform with ⟨value, hattached, -, -⟩ | hnext
    · have hequals : '=' ∈ flag.toList := by
        rw [← hsame, hw, hattached]
        simp
      exact (not_blank_of_mem_flag flag hflag _ hequals).2 rfl
    · have hsuffix : other.toList <:+ flag.toList := ⟨before, by rw [← hnext, ← hw, hsame]⟩
      have hlength := congrArg List.length hw
      rw [hnext, (eq_of_flag_suffix flag hflag other hother).1 hsuffix, hsame,
        List.length_append] at hlength
      exact hbefore (List.length_eq_zero_iff.mp (by omega))
  · cases value with
    | cons c value =>
      have hvalue : ∀ d ∈ c :: value, isWordChar d = true := fun d hd =>
        hword d (by rw [hsame]; exact List.mem_append_right _ (List.mem_cons_of_mem _ hd))
      have hwhole := afterSelection_attached hflag (List.cons_ne_nil c value) hvalue hend
      rw [← hsame, hfront hbefore] at hwhole
      cases hwhole
    | nil =>
      rcases hform with ⟨value, hattached, hvalue, -⟩ | hnext
      · have hshorter : before ++ (other.toList ++ '=' :: value.dropLast) = flag.toList := by
          have hlast := congrArg List.dropLast (hw.symm.trans hsame)
          rw [hattached, List.dropLast_concat, List.dropLast_append_of_ne_nil (by simp),
            List.dropLast_append_of_ne_nil (List.cons_ne_nil _ _),
            List.dropLast_cons_of_ne_nil hvalue] at hlast
          exact hlast
        have hequals : '=' ∈ flag.toList := by
          rw [← hshorter]
          simp
        exact (not_blank_of_mem_flag flag hflag _ hequals).2 rfl
      · exact (eq_of_flag_suffix flag hflag other hother).2
          ⟨before, by rw [← hnext, ← hw, hsame]⟩

theorem otherTokens_not_selection {token : String} (hmem : token ∈ otherTokens valued tokens) :
    isSelection token = false := by
  induction tokens generalizing valued with
  | nil => cases hmem
  | cons first tokens ih =>
    rw [otherTokens] at hmem
    split_ifs at hmem with hselection hvalue
    · exact ih hmem
    · exact ih hmem
    · rcases List.mem_cons.mp hmem with hsame | hrest
      · rw [hsame]
        exact Bool.eq_false_iff.mpr hselection
      · exact ih hrest

/-- Behind a selection an option is the first token that is kept. -/
theorem isOption_head {token : String} (hhead : token ∈ (otherTokens true tokens).head?) :
    isOption token = true := by
  induction tokens with
  | nil => cases hhead
  | cons first tokens ih =>
    rw [otherTokens] at hhead
    split_ifs at hhead with hselection hvalue
    · exact ih hhead
    · exact ih hhead
    · rw [← Option.some_inj.mp hhead]
      simpa using hvalue

/-- What is kept of the first tokens, and how it goes on. -/
theorem exists_otherTokens_append (valued : Bool) (first : List String) : ∃ kept valued',
    (∀ token ∈ kept, isSelection token = false) ∧
      ∀ tokens, otherTokens valued (first ++ tokens) = kept ++ otherTokens valued' tokens := by
  induction first generalizing valued with
  | nil => exact ⟨[], valued, nofun, fun _ => rfl⟩
  | cons token first ih =>
    by_cases hdropped : isSelection token = true ∨ (valued && !isOption token) = true
    · obtain ⟨kept, valued', hkept, hsame⟩ := ih true
      refine ⟨kept, valued', hkept, fun tokens => ?_⟩
      rw [List.cons_append, otherTokens, hsame]
      rcases hdropped with hselection | hvalue
      · rw [if_pos hselection]
      · rw [if_pos hvalue, ite_self]
    · obtain ⟨hselection, hvalue⟩ := not_or.mp hdropped
      obtain ⟨kept, valued', hkept, hsame⟩ := ih false
      refine ⟨token :: kept, valued',
        List.forall_mem_cons.mpr ⟨Bool.eq_false_iff.mpr hselection, hkept⟩, fun tokens => ?_⟩
      rw [List.cons_append, otherTokens, if_neg hselection, if_neg hvalue, hsame,
        List.cons_append]

/-! ## What is never made good -/

/-- The words that are left of a text are `ahead` of those that should be. -/
def Ahead (ahead : List String) (valued : Bool) (text : List Char) (ws : List (List Char)) : Prop :=
  spoken (wordsOf (removed text)) = ahead ++ otherTokens valued (spoken ws)

/-- What follows from being ahead: no option is among what is still expected, and with nothing
expected the text is separable. -/
def MadeGood (ahead : List String) (valued : Bool) (text : List Char) : Prop :=
  (∀ token ∈ ahead, isOption token = false) ∧ (ahead = [] → Separable valued text)

/-- What a match leaves of a word, and the words behind what it takes. -/
theorem exists_behind_match (hword : ∀ c ∈ w, isWordChar c = true)
    (hend : ∀ c ∈ rest.head?, isShlexSpace c = true) (hrest : Spelled rest ws)
    (hleft : afterSelection (w ++ rest) = some left) : ∃ taken values ws',
      w ++ rest = taken ++ left ∧ ws = values ++ ws' ∧ Spelled left ws' ∧
        (∀ c ∈ left.head?, isShlexSpace c = true) ∧
          shlexOf taken = .ok (String.ofList w :: spoken values) ∧ values.length ≤ 1 ∧
            isSelection (String.ofList w) = true := by
  obtain ⟨flag, hflag, ⟨value, hw, hne, hsame⟩ | hw⟩ := afterSelection_word hword hend hleft
  · refine ⟨w, [], ws, by rw [hsame], rfl, by rw [hsame]; exact hrest,
      by rw [hsame]; exact hend, ?_, Nat.zero_le 1, ?_⟩
    · exact shlexOf_word (by rw [hw]; simp) hword
    · rw [hw]
      exact isSelection_attached hflag value
  · rw [hw] at hleft
    obtain ⟨before, v, ws', htext, hws, hlater, hspelled, hread⟩ :=
      afterSelection_next hflag hrest hend hleft
    have hsame : String.ofList w = flag := by
      rw [hw, String.ofList_toList]
    refine ⟨w ++ before, [v], ws', by rw [htext, List.append_assoc], hws, hspelled,
      hlater, ?_, Nat.le_refl 1, ?_⟩
    · rw [hsame, hw]
      exact hread
    · rw [hsame]
      exact isSelection_of_flag hflag

theorem spoken_append (first second : List (List Char)) :
    spoken (first ++ second) = spoken first ++ spoken second := List.map_append

/-- A word that is expected, or dropped. -/
theorem exists_step (valued : Bool) (token : String) :
    (∀ tokens, otherTokens valued (token :: tokens) = otherTokens true tokens) ∧
        (isSelection token = true ∨ valued = true ∧ isOption token = false) ∨
      (∀ tokens, otherTokens valued (token :: tokens) = token :: otherTokens false tokens) ∧
        isSelection token = false ∧ (valued = true → isOption token = true) := by
  by_cases hselection : isSelection token = true
  · exact Or.inl ⟨fun tokens => otherTokens_selection hselection, Or.inl hselection⟩
  · have hother := Bool.eq_false_iff.mpr hselection
    cases hoption : isOption token with
    | true => exact Or.inr ⟨fun tokens => otherTokens_other hother fun _ => hoption, hother,
        fun _ => rfl⟩
    | false =>
      cases valued with
      | true =>
        have hvalue (tokens : List String) :
            otherTokens true ([token] ++ tokens) = otherTokens true tokens :=
          otherTokens_values (List.forall_mem_singleton.mpr (Or.inl hoption))
        exact Or.inl ⟨hvalue, Or.inr ⟨rfl, rfl⟩⟩
      | false => exact Or.inr ⟨fun tokens => otherTokens_other hother nofun, hother, nofun⟩

theorem head_removed (hend : ∀ c ∈ rest.head?, isShlexSpace c = true) :
    ∀ c ∈ (removed rest).head?, isShlexSpace c = true := by
  cases rest with
  | nil => exact hend
  | cons c rest =>
    rw [removed_blank (hend c rfl)]
    exact hend

theorem spoken_cons (w : List Char) (ws : List (List Char)) :
    spoken (w :: ws) = String.ofList w :: spoken ws := rfl

/-- A word that is kept whole. -/
theorem madeGood_of_quiet {ahead : List String} (hne : w ≠ [])
    (hword : ∀ c ∈ w, isWordChar c = true) (hend : ∀ c ∈ rest.head?, isShlexSpace c = true)
    (hquiet : ∀ after ∈ w.tails, after ≠ [] → afterSelection (after ++ rest) = none)
    (hih : ∀ ahead valued, (∀ token ∈ ahead, isSelection token = false) →
      Ahead ahead valued rest ws → MadeGood ahead valued rest)
    (hahead : ∀ token ∈ ahead, isSelection token = false)
    (heq : Ahead ahead valued (w ++ rest) (w :: ws)) : MadeGood ahead valued (w ++ rest) := by
  rw [Ahead, removed_append hquiet, wordsOf_word_append hne hword (head_removed hend), spoken_cons,
    spoken_cons] at heq
  rcases exists_step valued (String.ofList w) with ⟨hstep, hdropped⟩ | ⟨hstep, hother, hoption⟩
  · -- The word should be gone.
    rw [hstep] at heq
    rcases List.cons_eq_append_iff.mp heq with ⟨-, hexpected⟩ | ⟨later, hfirst, hlater⟩
    · rcases hdropped with hselection | ⟨-, hvalue⟩
      · have hother := otherTokens_not_selection (hexpected ▸ List.mem_cons_self)
        exact absurd (hselection.symm.trans hother) (by decide)
      · have hoption := isOption_head (show _ ∈ (otherTokens true (spoken ws)).head? by
          rw [hexpected]
          rfl)
        exact absurd (hoption.symm.trans hvalue) (by decide)
    · rw [hfirst, List.forall_mem_cons] at hahead
      have hvalue : isOption (String.ofList w) = false := by
        rcases hdropped with hselection | ⟨-, hvalue⟩
        · exact absurd (hselection.symm.trans hahead.1) (by decide)
        · exact hvalue
      rw [MadeGood, hfirst, List.forall_mem_cons]
      exact ⟨⟨hvalue, (hih later true hahead.2 hlater).1⟩, nofun⟩
  · rw [hstep] at heq
    rcases List.cons_eq_append_iff.mp heq with ⟨hnone, hexpected⟩ | ⟨later, hfirst, hlater⟩
    · have hrest := hih [] false nofun (List.cons.inj hexpected).2.symm
      rw [hnone]
      have htidy : collapsed w = w := by
        rw [collapsed, wordsOf_of_word hne hword, List.intercalate_singleton]
      exact ⟨nofun, fun _ => .word (shlexOf_word hne hword) hother hoption htidy hquiet hend
        (hrest.2 rfl)⟩
    · rw [hfirst, List.forall_mem_cons] at hahead
      have hmore : Ahead (later ++ [String.ofList w]) false rest ws := by
        rw [Ahead, hlater, List.append_assoc]
        rfl
      have hnext := hih (later ++ [String.ofList w]) false
        (List.forall_mem_append.mpr ⟨hahead.2, List.forall_mem_singleton.mpr hother⟩) hmore
      obtain ⟨hoptions, hthis⟩ := List.forall_mem_append.mp hnext.1
      rw [MadeGood, hfirst, List.forall_mem_cons]
      exact ⟨⟨hthis _ List.mem_cons_self, hoptions⟩, nofun⟩

/-- A word at whose front the pattern begins. -/
theorem madeGood_of_match {ahead : List String} (hword : ∀ c ∈ w, isWordChar c = true)
    (hend : ∀ c ∈ rest.head?, isShlexSpace c = true) (hrest : Spelled rest ws)
    (hmatch : afterSelection (w ++ rest) = some left)
    (hih : ∀ ahead valued ws, Spelled left ws → (∀ token ∈ ahead, isSelection token = false) →
      Ahead ahead valued left ws → MadeGood ahead valued left)
    (hahead : ∀ token ∈ ahead, isSelection token = false)
    (heq : Ahead ahead valued (w ++ rest) (w :: ws)) : MadeGood ahead valued (w ++ rest) := by
  obtain ⟨taken, values, ws', htext, hws, hleft, hlater, hread, hlength, hselection⟩ :=
    exists_behind_match hword hend hrest hmatch
  rw [Ahead, removed_of_some hmatch, spoken_cons, otherTokens_selection hselection, hws,
    spoken_append] at heq
  rw [htext] at hmatch ⊢
  cases values with
  | nil =>
    obtain ⟨hoptions, hseparable⟩ := hih ahead true ws' hleft hahead heq
    exact ⟨hoptions, fun hnone =>
      .selection hread hselection nofun hmatch hlater (hseparable hnone)⟩
  | cons v values =>
    cases values with
    | cons next values => simp at hlength
    | nil =>
      change spoken (wordsOf (removed left)) =
        ahead ++ otherTokens true (String.ofList v :: spoken ws') at heq
      rcases exists_step true (String.ofList v) with ⟨hstep, hdropped⟩ |
        ⟨hstep, hother, hoption⟩
      · rw [hstep] at heq
        obtain ⟨hoptions, hseparable⟩ := hih ahead true ws' hleft hahead heq
        have hvalue := hdropped.symm.imp_left And.right
        exact ⟨hoptions, fun hnone => .selection hread hselection
          (List.forall_mem_singleton.mpr hvalue) hmatch hlater (hseparable hnone)⟩
      · -- The option is taken as a value, and is expected from now on.
        have hmore : Ahead (ahead ++ [String.ofList v]) false left ws' := by
          rw [Ahead, heq, hstep, List.append_assoc]
          rfl
        have hnext := hih (ahead ++ [String.ofList v]) false ws' hleft
          (List.forall_mem_append.mpr ⟨hahead, List.forall_mem_singleton.mpr hother⟩) hmore
        have hv := (List.forall_mem_append.mp hnext.1).2 _ List.mem_cons_self
        exact absurd (hv.symm.trans (hoption rfl)) (by decide)

/-- A word that is cut where the pattern begins in it. -/
theorem madeGood_of_cut {ahead : List String} {before after : List Char} (hbefore : before ≠ [])
    (hafter : after ≠ []) (hword : ∀ c ∈ before ++ after, isWordChar c = true)
    (hend : ∀ c ∈ rest.head?, isShlexSpace c = true) (hrest : Spelled rest ws)
    (hmatch : afterSelection (after ++ rest) = some left)
    (hremoved : removed (before ++ after ++ rest) = before ++ removed left)
    (hother : isSelection (String.ofList (before ++ after)) = false)
    (hih : ∀ ahead valued ws, Spelled left ws → (∀ token ∈ ahead, isSelection token = false) →
      Ahead ahead valued left ws → MadeGood ahead valued left)
    (hahead : ∀ token ∈ ahead, isSelection token = false)
    (heq : Ahead ahead valued (before ++ after ++ rest) ((before ++ after) :: ws)) :
    MadeGood ahead valued (before ++ after ++ rest) := by
  obtain ⟨hfirst, hsecond⟩ := List.forall_mem_append.mp hword
  obtain ⟨taken, values, ws', -, hws, hleft, hlater, -, -, -⟩ :=
    exists_behind_match hsecond hend hrest hmatch
  have hcut : String.ofList before ≠ String.ofList (before ++ after) := by
    intro hsame
    have hlists := congrArg (fun text => text.toList.length) hsame
    simp only [String.toList_ofList, List.length_append] at hlists
    exact hafter (List.length_eq_zero_iff.mp (by omega))
  rw [Ahead, hremoved, wordsOf_word_append hbefore hfirst (head_removed hlater), spoken_cons,
    spoken_cons] at heq
  -- Whatever is expected besides, an option that is cut stays expected.
  have hexpect (valued : Bool) (later more : List String)
      (hlaters : ∀ token ∈ later, isSelection token = false)
      (hmore : ∀ token ∈ more, isSelection token = false)
      (hsame : spoken (wordsOf (removed left)) = later ++ (more ++ otherTokens valued (spoken ws))) :
      (∀ token ∈ later, isOption token = false) ∧ ∀ token ∈ more, isOption token = false := by
    obtain ⟨kept, valued', hkept, hgo⟩ := exists_otherTokens_append valued (spoken values)
    have hnext : Ahead (later ++ (more ++ kept)) valued' left ws' := by
      rw [Ahead, hsame, hws, spoken_append, hgo]
      simp only [List.append_assoc]
    have hgood := (hih _ _ _ hleft (List.forall_mem_append.mpr
      ⟨hlaters, List.forall_mem_append.mpr ⟨hmore, hkept⟩⟩) hnext).1
    obtain ⟨hlaters, hothers⟩ := List.forall_mem_append.mp hgood
    exact ⟨hlaters, (List.forall_mem_append.mp hothers).1⟩
  rcases exists_step valued (String.ofList (before ++ after)) with ⟨hstep, hdropped⟩ |
    ⟨hstep, -, hoption⟩
  · rw [hstep] at heq
    have hvalue : isOption (String.ofList before) = false := by
      rcases hdropped with hselection | ⟨-, hvalue⟩
      · exact absurd (hselection.symm.trans hother) (by decide)
      · exact (isOption_append hbefore after).symm.trans hvalue
    rcases List.cons_eq_append_iff.mp heq with ⟨-, hexpected⟩ | ⟨later, hthis, hlaters⟩
    · have hhead := isOption_head (show _ ∈ (otherTokens true (spoken ws)).head? by
        rw [hexpected]
        rfl)
      exact absurd (hhead.symm.trans hvalue) (by decide)
    · rw [hthis, List.forall_mem_cons] at hahead
      rw [MadeGood, hthis, List.forall_mem_cons]
      exact ⟨⟨hvalue, (hexpect true later [] hahead.2 nofun hlaters).1⟩, nofun⟩
  · rw [hstep] at heq
    rcases List.cons_eq_append_iff.mp heq with ⟨-, hexpected⟩ | ⟨later, hthis, hlaters⟩
    · exact absurd (List.cons.inj hexpected).1.symm hcut
    · rw [hthis, List.forall_mem_cons] at hahead
      obtain ⟨hoptions, hwhole⟩ := hexpect false later [String.ofList (before ++ after)] hahead.2
        (List.forall_mem_singleton.mpr hother) hlaters
      have hvalue := hwhole _ List.mem_cons_self
      rw [isOption_append hbefore] at hvalue
      rw [MadeGood, hthis, List.forall_mem_cons]
      exact ⟨⟨hvalue, hoptions⟩, nofun⟩

/-- Words that are kept and not expected, or cut, leave others expected that are not there. -/
theorem madeGood_of_ahead {ahead : List String} (htext : Spelled text ws)
    (hahead : ∀ token ∈ ahead, isSelection token = false) (heq : Ahead ahead valued text ws) :
    MadeGood ahead valued text := by
  induction hsize : text.length using Nat.strong_induction_on
    generalizing text ws valued ahead with
  | _ size ih =>
    subst hsize
    cases htext with
    | nil =>
      have hnone : [] = ahead ++ [] := heq
      rw [List.append_nil] at hnone
      rw [← hnone]
      exact ⟨nofun, fun _ => .nil⟩
    | @blank c text _ hblank htext =>
      rw [Ahead, removed_blank hblank, wordsOf_cons (isWhiteSpace_of_isShlexSpace hblank)] at heq
      obtain ⟨hoptions, hseparable⟩ := ih text.length (Nat.lt_succ_self _) htext hahead heq rfl
      exact ⟨hoptions, fun hnone => .blank hblank (hseparable hnone)⟩
    | @word w rest ws hne hword hend hrest =>
      have hpositive : 0 < w.length := List.length_pos_iff.mpr hne
      have hshorter {left : List Char} {after : List Char} (hlength : after.length ≤ w.length)
          (hmatch : afterSelection (after ++ rest) = some left) :
          left.length < (w ++ rest).length := by
        have hsuffix := (suffix_of_afterSelection hmatch).length_le
        rw [List.length_tail, List.length_append] at hsuffix
        rw [List.length_append]
        omega
      rcases quiet_or_first w rest with hquiet | ⟨before, after, left, hw, hafter, hmatch,
        hremoved, hfront⟩
      · exact madeGood_of_quiet hne hword hend hquiet
          (fun _ _ hahead heq => ih rest.length (by rw [List.length_append]; omega) hrest hahead
            heq rfl) hahead heq
      · have hlength := congrArg List.length hw
        rw [List.length_append] at hlength
        have hih : ∀ ahead valued ws, Spelled left ws →
            (∀ token ∈ ahead, isSelection token = false) → Ahead ahead valued left ws →
              MadeGood ahead valued left := fun _ _ _ hleft hahead heq =>
          ih left.length (hshorter (by omega) hmatch) hleft hahead heq rfl
        by_cases hbefore : before = []
        · rw [hbefore, List.nil_append] at hw
          rw [← hw] at hmatch
          exact madeGood_of_match hword hend hrest hmatch hih hahead heq
        · have hother : isSelection (String.ofList w) = false := by
            rw [Bool.eq_false_iff]
            exact fun hselection => hbefore (before_eq_nil hselection hword hend hw hmatch hfront)
          rw [hw] at hword hremoved hother heq ⊢
          exact madeGood_of_cut hbefore hafter hword hend hrest hmatch hremoved hother hih hahead
            heq

/-- **Stripping takes away the selections and nothing else** where the text is separable, and
from a plain text nowhere else. -/
theorem stripsSelections_iff (command : String) :
    ((∀ tokens, shlexSplit command = .ok tokens → Separable false command.toList) →
        StripsSelections command) ∧
      (isPlainText command.toList = true →
        (StripsSelections command ↔ Separable false command.toList)) := by
  have hstrips (hseparable : ∀ tokens, shlexSplit command = .ok tokens →
      Separable false command.toList) : StripsSelections command := by
    intro tokens htokens
    obtain ⟨tokens', hread, hstripped⟩ := (hseparable tokens htokens).strips
    have hsame : tokens' = tokens := Except.ok.inj (hread.symm.trans htokens)
    rw [← toList_stripModelSelection, hsame] at hstripped
    exact hstripped
  refine ⟨hstrips, fun hplain => ⟨fun hcommand => ?_, fun hseparable => hstrips fun _ _ => hseparable⟩⟩
  obtain ⟨ws, hws⟩ := exists_spelled hplain
  have hstripped : shlexOf (stripModelSelection command).toList =
      .ok (otherTokens false (spoken ws)) := hcommand (spoken ws) hws.shlexOf_eq
  rw [toList_stripModelSelection, shlexOf_collapsed hplain] at hstripped
  have hgood : MadeGood [] false command.toList :=
    madeGood_of_ahead hws nofun (Except.ok.inj hstripped)
  exact hgood.2 rfl

/-- A quoted value between a command and an option. -/
theorem separable_daily : Separable false "run --select 'tag:daily' --full-refresh".toList := by
  have hrun : ∀ after ∈ "run".toList.tails, after ≠ [] →
      afterSelection (after ++ " --select 'tag:daily' --full-refresh".toList) = none := by
    decide +kernel
  have htaken : afterSelection ("--select 'tag:daily'".toList ++ " --full-refresh".toList) =
      some " --full-refresh".toList := by
    decide +kernel
  have hoption : ∀ after ∈ "--full-refresh".toList.tails, after ≠ [] →
      afterSelection (after ++ []) = none := by
    decide +kernel
  have hlast : Separable true ("--full-refresh".toList ++ []) :=
    .word rfl (by decide) (by decide) (by decide +kernel) hoption nofun .nil
  have hrest : Separable false " --select 'tag:daily' --full-refresh".toList :=
    .blank rfl (.selection rfl (by decide) (by decide) htaken (by rintro _ ⟨⟩; rfl)
      (.blank rfl hlast))
  exact show Separable false ("run".toList ++ _) from
    .word rfl (by decide) nofun (by decide +kernel) hrun (by rintro _ ⟨⟩; rfl) hrest

/-- A command of which one value is taken, and a plain command. -/
theorem strips_daily : StripsSelections "run --select 'tag:daily' --full-refresh" ∧
    (StripsSelections "run -s orders" ↔ Separable false "run -s orders".toList) :=
  ⟨(stripsSelections_iff _).1 fun _ _ => separable_daily, (stripsSelections_iff _).2 (by decide)⟩

/-- A second value is left behind. -/
theorem not_strips_of_two_values : ¬ ∀ command, StripsSelections command := by
  intro hclaim
  have hstripped := hclaim "run --select a b" ["run", "--select", "a", "b"] rfl
  exact absurd hstripped (by decide +kernel)

end DbtCraft.Web.RunOptions

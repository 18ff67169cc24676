/-
# Calls in templates

How Jinja reads a template whose expressions are calls with literal arguments. A literal in
double quotes is decoded as `unicode-escape` does, one code point for each escape, so two
escapes of a surrogate pair stay two. The reader itself is a parameter with the laws that its
lexer gives it; the text is read one character at a time where no tag begins.
-/

import DbtCraft.Python.JsonLine
import DbtCraft.Python.JsonValue
import DbtCraft.Python.Splitting
import DbtCraft.Sql.Templates

namespace DbtCraft.Python.Jinja

open DbtCraft.Python.Json (codes readCodes readCodes_text)
open DbtCraft.Python.JsonText (Codes codesOf readCodes_suffix)
open DbtCraft.Sql (Item holes)

/-- A call, with the code points of its arguments. -/
structure Call where
  fn : String
  args : List Codes
  deriving DecidableEq

/-! ## Literals -/

/-- Before its closing quote a literal holds `\/`, an escape of JSON that is none of Python. -/
def escapesSlash : Bool → List Char → Bool
  | _, [] => false
  | true, c :: rest => c = '/' || escapesSlash false rest
  | false, c :: rest => c ≠ '"' && escapesSlash (c = '\\') rest

/-- A literal and what stands after it. The other escapes of JSON are escapes of Python. -/
def readLiteral : List Char → Option (Codes × List Char)
  | '"' :: text => if escapesSlash false text then none else readCodes .plain text
  | _ => none

/-- So many literals at most, up to the end of the expression. -/
def readArgs : ℕ → List Char → Option (List Codes × List Char)
  | 0, _ => none
  | count + 1, text =>
    match readLiteral text with
    | none => none
    | some (arg, rest) =>
      match rest.dropPrefix? [',', ' '] with
      | some rest => (readArgs count rest).map fun found => (arg :: found.1, found.2)
      | none => (rest.dropPrefix? [')', ' ', '\x7d', '\x7d']).map fun rest => ([arg], rest)

/-- The function that is called, and what stands after its parenthesis. -/
def readFn (fns : List String) (text : List Char) : Option (String × List Char) :=
  fns.findSome? fun fn => (text.dropPrefix? (fn.toList ++ ['('])).map fun rest => (fn, rest)

/-- An expression that is a call of one of the functions, and what stands after it. -/
def readCall (fns : List String) (text : List Char) : Option (Call × List Char) :=
  match (text.dropPrefix? ['\x7b', '\x7b', ' ']).bind (readFn fns) with
  | none => none
  | some (fn, rest) => (readArgs rest.length rest).map fun found => (⟨fn, found.1⟩, found.2)

/-! ## Templates -/

/-- A tag begins with the text. -/
def opens : List Char → Bool
  | c :: d :: _ => c = '\x7b' && (d = '\x7b' || d = '%' || d = '#')
  | _ => false

/-- The tag takes the white space before it. -/
def takesSpace (text : List Char) : Bool := opens text && (text.drop 2).head? = some '-'

/-- The text begins with white space that a tag takes. -/
def trimmed (text : List Char) : Bool := takesSpace (text.dropWhile isSpace)

/-- The reader of templates that hold calls of these functions and no other tags; `none` is
any other template. -/
structure Reader (fns : List String) where
  scan : List Char → Option (List (Item Call))
  scan_nil : scan [] = some []
  scan_char : ∀ c rest, opens (c :: rest) = false → trimmed (c :: rest) = false →
    scan (c :: rest) = (scan rest).map (.char c :: ·)
  /-- White space or not, a character is no tag. -/
  holes_char : ∀ c rest, opens (c :: rest) = false →
    (scan (c :: rest)).map holes = (scan rest).map holes
  scan_call : ∀ text call rest, readCall fns text = some (call, rest) →
    scan text = (scan rest).map (.hole call :: ·)

/-- Jinja knows one newline only. -/
def newlines : List Char → List Char
  | '\r' :: '\n' :: rest => '\n' :: newlines rest
  | c :: rest => (if c = '\r' then '\n' else c) :: newlines rest
  | [] => []

/-- A newline at the end is dropped. -/
def dropFinal (text : List Char) : List Char :=
  if text.getLast? = some '\n' then text.dropLast else text

variable {fns : List String}

/-- `Environment().parse(source)`. -/
def Reader.read (reader : Reader fns) (source : List Char) : Option (List (Item Call)) :=
  reader.scan (dropFinal (newlines source))

/-! ## Written calls -/

theorem escapesSlash_plain {c : Char} (hquote : c ≠ '"') (hslash : c ≠ '\\') (rest : List Char) :
    escapesSlash false (c :: rest) = escapesSlash false rest := by
  simp [escapesSlash, hquote, hslash]

theorem digitChar_plain :
    ∀ digit < 16, Nat.digitChar digit ≠ '"' ∧ Nat.digitChar digit ≠ '\\' := by
  decide

theorem escapesSlash_hexFour (code : ℕ) (rest : List Char) :
    escapesSlash false ('\\' :: 'u' :: hexFour code ++ rest) = escapesSlash false rest := by
  have hdigit (digit : ℕ) (rest : List Char) :
      escapesSlash false (Nat.digitChar (digit % 16) :: rest) = escapesSlash false rest :=
    have hplain := digitChar_plain (digit % 16) (Nat.mod_lt _ (by decide))
    escapesSlash_plain hplain.1 hplain.2 rest
  show escapesSlash false (_ :: _ :: _ :: _ :: rest) = _
  rw [hdigit, hdigit, hdigit, hdigit]

theorem escapesSlash_jsonChar (c : Char) (rest : List Char) :
    escapesSlash false (jsonChar c ++ rest) = escapesSlash false rest := by
  have hwritten := Json.written_jsonChar c
  generalize jsonChar c = text at hwritten ⊢
  cases hwritten with
  | @escape letter hletter _ _ =>
    have hslash : letter ≠ '/' := by
      rintro rfl
      exact absurd hletter (by decide)
    simp [escapesSlash, hslash]
  | plain hquote hslash _ => exact escapesSlash_plain hquote hslash rest
  | hex _ => exact escapesSlash_hexFour _ rest
  | pair _ => rw [List.append_assoc, escapesSlash_hexFour, escapesSlash_hexFour]

theorem escapesSlash_text (text rest : List Char) :
    escapesSlash false (text.flatMap jsonChar ++ '"' :: rest) = false := by
  induction text with
  | nil => rfl
  | cons c text ih => rw [List.flatMap_cons, List.append_assoc, escapesSlash_jsonChar, ih]

/-- A text as `json.dumps` writes it is read as its code units. -/
theorem readLiteral_jsonString (text : String) (rest : List Char) :
    readLiteral ((jsonString text).toList ++ rest) = some (text.toList.flatMap codes, rest) := by
  have hwritten : (jsonString text).toList ++ rest =
      '"' :: (text.toList.flatMap jsonChar ++ '"' :: rest) := by
    simp [jsonString]
  rw [hwritten, readLiteral, escapesSlash_text, if_neg (by decide), readCodes_text]

theorem dropPrefix?_append (start rest : List Char) :
    (start ++ rest).dropPrefix? start = some rest :=
  List.dropPrefix?_append_of_beq rest (BEq.refl start)

/-- The arguments of a call, up to its end. -/
def writeArgs (args : List String) : List Char :=
  List.intercalate [',', ' '] (args.map fun arg => (jsonString arg).toList)

theorem writeArgs_singleton (arg : String) : writeArgs [arg] = (jsonString arg).toList := by
  simp [writeArgs]

theorem writeArgs_cons (arg next : String) (args : List String) :
    writeArgs (arg :: next :: args) =
      (jsonString arg).toList ++ ([',', ' '] ++ writeArgs (next :: args)) := by
  simp [writeArgs]

theorem length_le_writeArgs (args : List String) : args.length ≤ (writeArgs args).length := by
  induction args with
  | nil => exact Nat.zero_le _
  | cons arg args ih =>
    cases args with
    | nil =>
      rw [writeArgs_singleton]
      simp [jsonString]
    | cons next args =>
      rw [writeArgs_cons, List.length_append, List.length_append, List.length_cons]
      simp only [List.length_cons] at ih ⊢
      omega

/-- Written arguments are read as their code units. -/
theorem readArgs_write {count : ℕ} {arg : String} {args : List String} (hcount : args.length < count)
    (rest : List Char) :
    readArgs count (writeArgs (arg :: args) ++ ([')', ' ', '\x7d', '\x7d'] ++ rest)) =
      some ((arg :: args).map fun arg => arg.toList.flatMap codes, rest) := by
  induction args generalizing count arg with
  | nil =>
    obtain ⟨count, rfl⟩ := Nat.exists_eq_succ_of_ne_zero (Nat.ne_of_gt hcount)
    have hlast : ([')', ' ', '\x7d', '\x7d'] ++ rest).dropPrefix? [',', ' '] = none := by
      simp [List.dropPrefix?]
    rw [writeArgs_singleton, readArgs, readLiteral_jsonString]
    simp only [hlast, dropPrefix?_append]
    rfl
  | cons next args ih =>
    obtain ⟨count, rfl⟩ := Nat.exists_eq_succ_of_ne_zero (Nat.ne_of_gt (Nat.zero_lt_of_lt hcount))
    rw [writeArgs_cons, List.append_assoc, List.append_assoc, readArgs, readLiteral_jsonString]
    simp only [dropPrefix?_append, ih (Nat.lt_of_succ_lt_succ hcount)]
    rfl

/-- A call, as an expression. -/
def writeCall (fn : String) (args : List String) : List Char :=
  ['\x7b', '\x7b', ' '] ++ (fn.toList ++ ['('] ++ (writeArgs args ++ [')', ' ', '\x7d', '\x7d']))

theorem readFn_write {fn : String} (hfn : fn ∈ fns) (hplain : ∀ fn ∈ fns, '(' ∉ fn.toList)
    (rest : List Char) : readFn fns (fn.toList ++ ['('] ++ rest) = some (fn, rest) := by
  induction fns with
  | nil => cases hfn
  | cons other fns ih =>
    unfold readFn
    rw [List.findSome?_cons]
    by_cases hother : other = fn
    · rw [hother, dropPrefix?_append]
      rfl
    · have hnone : (fn.toList ++ ['('] ++ rest).dropPrefix? (other.toList ++ ['(']) = none := by
        rw [Option.eq_none_iff_forall_ne_some]
        intro left hleft
        obtain ⟨start, htext, hstart⟩ := List.dropPrefix?_eq_some_iff.mp hleft
        rw [eq_of_beq hstart, List.append_assoc, List.append_assoc] at htext
        have hpieces := congrArg (split '(') htext
        rw [List.singleton_append, List.singleton_append, split_append (hplain fn hfn),
          split_append (hplain other List.mem_cons_self)] at hpieces
        exact hother (String.toList_inj.mp (List.cons.inj hpieces).1.symm)
      rw [hnone]
      exact ih (List.mem_of_ne_of_mem (Ne.symm hother) hfn) fun fn hfn =>
        hplain fn (List.mem_cons_of_mem _ hfn)

/-- A written call is read with the code units of its arguments. -/
theorem readCall_write {fn arg : String} {args : List String} (hfn : fn ∈ fns)
    (hplain : ∀ fn ∈ fns, '(' ∉ fn.toList) (rest : List Char) :
    readCall fns (writeCall fn (arg :: args) ++ rest) =
      some (⟨fn, (arg :: args).map fun arg => arg.toList.flatMap codes⟩, rest) := by
  have hwritten : writeCall fn (arg :: args) ++ rest =
      ['\x7b', '\x7b', ' '] ++ (fn.toList ++ ['('] ++
        (writeArgs (arg :: args) ++ ([')', ' ', '\x7d', '\x7d'] ++ rest))) := by
    simp [writeCall]
  have hcount : args.length <
      (writeArgs (arg :: args) ++ ([')', ' ', '\x7d', '\x7d'] ++ rest)).length := by
    have hargs := length_le_writeArgs (arg :: args)
    rw [List.length_append, List.length_append]
    simp only [List.length_cons] at hargs ⊢
    omega
  rw [hwritten, readCall, dropPrefix?_append]
  simp only [Option.bind_some, readFn_write hfn hplain, readArgs_write hcount, Option.map_some]

theorem carriage_not_mem_jsonChar (c : Char) : '\r' ∉ jsonChar c := fun hmem =>
  absurd (JsonText.printable_jsonChar c _ hmem) (by decide)

theorem carriage_not_mem_writeArgs (args : List String) : '\r' ∉ writeArgs args := by
  have hwritten (arg : String) : '\r' ∉ (jsonString arg).toList := by
    simp [jsonString, carriage_not_mem_jsonChar]
  induction args with
  | nil => exact List.not_mem_nil
  | cons arg args ih =>
    cases args with
    | nil =>
      rw [writeArgs_singleton]
      exact hwritten arg
    | cons next args =>
      rw [writeArgs_cons, List.mem_append, List.mem_append, not_or, not_or]
      exact ⟨hwritten arg, by decide, ih⟩

/-- A written call has no newline of another kind. -/
theorem carriage_not_mem_writeCall {fn : String} (hfn : '\r' ∉ fn.toList) (args : List String) :
    '\r' ∉ writeCall fn args := by
  simp [writeCall, hfn, carriage_not_mem_writeArgs]

theorem getLast?_writeCall (fn : String) (args : List String) :
    (writeCall fn args).getLast? = some '\x7d' := by
  have hlast : writeCall fn args = ['\x7b', '\x7b', ' '] ++ (fn.toList ++ ['('] ++
      (writeArgs args ++ [')', ' ', '\x7d'])) ++ ['\x7d'] := by
    simp [writeCall]
  rw [hlast, List.getLast?_concat]

/-! ## Sources -/

theorem newlines_append {text : List Char} (htext : '\r' ∉ text) (rest : List Char) :
    newlines (text ++ rest) = text ++ newlines rest := by
  induction text with
  | nil => rfl
  | cons c text ih =>
    have hc : c ≠ '\r' := (List.ne_of_not_mem_cons htext).symm
    have htail := ih (List.not_mem_of_not_mem_cons htext)
    rw [List.cons_append, newlines, htail, if_neg hc, List.cons_append]
    exact fun _ hcarriage => absurd hcarriage hc

theorem newlines_of_not_mem {text : List Char} (htext : '\r' ∉ text) : newlines text = text := by
  have hsame := newlines_append htext []
  rw [List.append_nil] at hsame
  rw [hsame, newlines, List.append_nil]

/-- The last character stays, unless it is a newline. -/
theorem getLast?_newlines {c : Char} (hcarriage : c ≠ '\r') (hnewline : c ≠ '\n')
    (text : List Char) : (newlines (text ++ [c])).getLast? = some c := by
  induction text using newlines.induct with
  | case1 rest ih =>
    rw [List.cons_append, List.cons_append, newlines, List.getLast?_cons, ih]
    rfl
  | case2 d rest hpair ih =>
    rw [List.cons_append, newlines, List.getLast?_cons, ih]
    · rfl
    · intro later hd hlater
      cases rest with
      | nil => exact hnewline (List.cons.inj hlater).1
      | cons e rest =>
        have hrest := (List.cons.inj hlater).1
        exact hpair rest hd (by rw [hrest])
  | case3 =>
    show (newlines [c]).getLast? = some c
    rw [newlines, if_neg hcarriage]
    · rfl
    · exact fun _ hcarriage' => absurd hcarriage' hcarriage

theorem dropFinal_of_getLast? {text : List Char} (htext : text.getLast? ≠ some '\n') :
    dropFinal text = text := if_neg htext

/-! ## Text between calls -/

/-- Text without braces adds no calls. -/
theorem Reader.holes_append (reader : Reader fns) {text : List Char} (htext : '\x7b' ∉ text)
    (rest : List Char) :
    (reader.scan (text ++ rest)).map holes = (reader.scan rest).map holes := by
  induction text with
  | nil => rfl
  | cons c text ih =>
    have hc : c ≠ '\x7b' := (List.ne_of_not_mem_cons htext).symm
    have hopens : opens (c :: (text ++ rest)) = false := by
      unfold opens
      split
      next hsame =>
        rw [← (List.cons.inj hsame).1, decide_eq_false hc, Bool.false_and]
      · rfl
    rw [List.cons_append, reader.holes_char c _ hopens, ih (List.not_mem_of_not_mem_cons htext)]

/-- A written call is a call. -/
theorem Reader.scan_writeCall (reader : Reader fns) {fn arg : String} {args : List String}
    (hfn : fn ∈ fns) (hplain : ∀ fn ∈ fns, '(' ∉ fn.toList) (rest : List Char) :
    reader.scan (writeCall fn (arg :: args) ++ rest) =
      (reader.scan rest).map
        (.hole ⟨fn, (arg :: args).map fun arg => arg.toList.flatMap codes⟩ :: ·) :=
  reader.scan_call _ _ _ (readCall_write hfn hplain rest)

/-! ## A reader of plain calls -/

theorem length_readLiteral {text rest : List Char} {arg : Codes}
    (hread : readLiteral text = some (arg, rest)) : rest.length < text.length := by
  unfold readLiteral at hread
  split at hread
  next text =>
    split at hread
    · cases hread
    · have hsuffix := (readCodes_suffix hread).length_le
      simp only [List.length_cons] at hsuffix ⊢
      omega
  · cases hread

theorem length_dropPrefix? {text start rest : List Char} (hrest : text.dropPrefix? start = some rest) :
    rest.length ≤ text.length := by
  obtain ⟨start', htext, -⟩ := List.dropPrefix?_eq_some_iff.mp hrest
  rw [htext, List.length_append]
  exact Nat.le_add_left _ _

theorem length_readArgs {count : ℕ} {text rest : List Char} {args : List Codes}
    (hread : readArgs count text = some (args, rest)) : rest.length < text.length := by
  induction count generalizing text args with
  | zero => cases hread
  | succ count ih =>
    rw [readArgs] at hread
    split at hread
    · cases hread
    next arg left harg =>
      have hleft := length_readLiteral harg
      split at hread
      next later hlater =>
        obtain ⟨⟨args, last⟩, hfound, hsame⟩ := Option.map_eq_some_iff.mp hread
        cases hsame
        have hlast := ih hfound
        have hsome := length_dropPrefix? hlater
        omega
      · obtain ⟨last, hlast, hsame⟩ := Option.map_eq_some_iff.mp hread
        cases hsame
        have hsome := length_dropPrefix? hlast
        omega

/-- A call is a tag, and takes some of the text. -/
theorem length_readCall {text rest : List Char} {call : Call}
    (hread : readCall fns text = some (call, rest)) :
    opens text = true ∧ rest.length < text.length := by
  unfold readCall at hread
  split at hread
  · cases hread
  next fn args hfn =>
    obtain ⟨inner, hinner, hfound⟩ := Option.bind_eq_some_iff.mp hfn
    obtain ⟨found, hargs, hsame⟩ := Option.map_eq_some_iff.mp hread
    obtain ⟨fn', -, hname⟩ := List.exists_of_findSome?_eq_some hfound
    obtain ⟨args', hargs', hpair⟩ := Option.map_eq_some_iff.mp hname
    cases hpair
    cases hsame
    obtain ⟨start, htext, hstart⟩ := List.dropPrefix?_eq_some_iff.mp hinner
    apply And.intro
    · rw [htext, eq_of_beq hstart]
      rfl
    · have hlast := length_readArgs (show _ = some (found.1, found.2) from hargs)
      have hsome := length_dropPrefix? hinner
      have hmore := length_dropPrefix? hargs'
      omega

/-- The reader, for texts that are no longer than the fuel. -/
def scanCalls (fns : List String) : ℕ → List Char → Option (List (Item Call))
  | _, [] => some []
  | 0, _ :: _ => none
  | fuel + 1, c :: rest =>
    match readCall fns (c :: rest) with
    | some (call, left) => (scanCalls fns fuel left).map (.hole call :: ·)
    | none =>
      if opens (c :: rest) then none else (scanCalls fns fuel rest).map (.char c :: ·)

/-- The length of the text is always enough fuel. -/
theorem scanCalls_fuel {fuel : ℕ} {text : List Char} (hfuel : text.length ≤ fuel) :
    scanCalls fns fuel text = scanCalls fns text.length text := by
  induction fuel using Nat.strong_induction_on generalizing text with
  | h fuel ih =>
    cases text with
    | nil => cases fuel <;> rfl
    | cons c rest =>
      obtain ⟨fuel, rfl⟩ := Nat.exists_eq_succ_of_ne_zero
        (Nat.ne_of_gt (Nat.zero_lt_of_lt hfuel))
      rw [List.length_cons] at hfuel ⊢
      have hsame {left : List Char} (hleft : left.length ≤ rest.length) :
          scanCalls fns fuel left = scanCalls fns rest.length left :=
        (ih fuel (Nat.lt_succ_self fuel) (by omega)).trans
          (ih rest.length (by omega) hleft).symm
      simp only [scanCalls]
      split
      next call left hcall =>
        have hlength := (length_readCall hcall).2
        rw [hsame (Nat.le_of_lt_succ hlength)]
      · rw [hsame (Nat.le_refl _)]

theorem scanCalls_char {c : Char} {rest : List Char} (hplain : opens (c :: rest) = false) :
    scanCalls fns (c :: rest).length (c :: rest) =
      (scanCalls fns rest.length rest).map (.char c :: ·) := by
  have hcall : readCall fns (c :: rest) = none := by
    rw [Option.eq_none_iff_forall_ne_some]
    intro found hfound
    exact absurd ((length_readCall hfound).1.symm.trans hplain) (by decide)
  rw [List.length_cons, scanCalls, hcall]
  simp only [hplain]
  rfl

/-- A reader that knows no tags but calls in one spelling. -/
def plainCalls (fns : List String) : Reader fns where
  scan text := scanCalls fns text.length text
  scan_nil := rfl
  scan_char c rest hplain _ := scanCalls_char hplain
  holes_char c rest hplain := by
    rw [scanCalls_char hplain]
    cases scanCalls fns rest.length rest <;> rfl
  scan_call text call rest hcall := by
    have hlength := (length_readCall hcall).2
    cases text with
    | nil => cases hlength
    | cons c text =>
      rw [List.length_cons, scanCalls, hcall]
      simp only [scanCalls_fuel (Nat.le_of_lt_succ hlength)]

end DbtCraft.Python.Jinja

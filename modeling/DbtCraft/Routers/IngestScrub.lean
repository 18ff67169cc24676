/-
# Scrubbing log lines

`_scrub` of `app/routers/ingest.py`: two patterns that know nothing of JSON. The text of a JSON
string is scrubbed into a text that is still made of whole letters and escapes, but for a quote
that has lost its backslash.
-/

import DbtCraft.Python.Json
import DbtCraft.Python.Substitute
import DbtCraft.Python.Text

namespace DbtCraft.Routers.IngestScrub

open DbtCraft.Python DbtCraft.Python.Substitute

/-- The characters of a string. -/
abbrev Text := List Char

/-! ## The patterns -/

/-- A letter of a pattern, whatever its case; the long s is a spelling of the letter s. -/
def sameLetter (letter c : Char) : Bool := c.toLower = letter || (letter = 's' && c = 'ſ')

/-- What follows a word that is spelled in any case. -/
def afterWord : Text → Text → Option Text
  | [], text => some text
  | letter :: word, c :: text => if sameLetter letter c then afterWord word text else none
  | _ :: _, [] => none

def passwordWord : Text := ['p', 'a', 's', 's', 'w', 'o', 'r', 'd', '=']

/-- A letter of a password option: no white space and no quote. -/
def isValueChar (c : Char) : Bool := !isSpace c && c ≠ '\'' && c ≠ '"'

/-- The first of `_SECRET_PATTERNS`. -/
def findPassword (text : Text) : Option (ℕ × Text) :=
  (afterWord passwordWord text).bind fun rest =>
    let value := rest.takeWhile isValueChar
    if value = [] then none
    else some (passwordWord.length + value.length, "password=***".toList)

/-- A letter of a user name. -/
def isUserChar (c : Char) : Bool := c ≠ ':' && c ≠ '/' && !isSpace c

/-- A letter of the password in a URL. -/
def isSecretChar (c : Char) : Bool := c ≠ '@' && !isSpace c

/-- The second of `_SECRET_PATTERNS`. -/
def findCredentials : Text → Option (ℕ × Text)
  | ':' :: '/' :: '/' :: text =>
    let user := text.takeWhile isUserChar
    match text.dropWhile isUserChar with
    | ':' :: rest =>
      let secret := rest.takeWhile isSecretChar
      if user = [] ∨ secret = [] ∨ (rest.dropWhile isSecretChar).head? ≠ some '@' then none
      else some (user.length + secret.length + 5,
        "://".toList ++ (user ++ ":***@".toList))
    | _ => none
  | _ => none

/-- `_scrub`. -/
def scrub (line : Text) : Text := substitute findCredentials (substitute findPassword line)

/-! ## Letters and escapes -/

/-- The end of an object whose last member is a string. -/
def ending : Text := ['"', '}']

/-- A text of letters as JSON writes them and of quotes, with its ending. -/
inductive Escaped : Text → Prop
  | close : Escaped ending
  | letter (c : Char) {rest : Text} : Escaped rest → Escaped (jsonChar c ++ rest)
  | quote {rest : Text} : Escaped rest → Escaped ('"' :: rest)

/-- The letters of an escape, but for a quote. -/
def escapeChars : Text := "\\nrtfbu0123456789acde".toList

variable {text rest new replacement word : Text} {c : Char} {length : ℕ}
  {find : Text → Option (ℕ × Text)} {keep : Char → Bool}

theorem mem_escapeChars_of_hexFour {code : ℕ} (hc : c ∈ hexFour code) : c ∈ escapeChars := by
  have hdigit : ∀ digit < 16, Nat.digitChar digit ∈ escapeChars := by decide
  simp only [hexFour, List.mem_cons, List.not_mem_nil, or_false] at hc
  rcases hc with rfl | rfl | rfl | rfl
  all_goals exact hdigit _ (Nat.mod_lt _ (by decide))

/-- A letter stands for itself, or it is an escape. -/
theorem jsonChar_cases (c : Char) :
    (jsonChar c = [c] ∧ c ≠ '"' ∧ c ≠ '\\') ∨ jsonChar c = ['\\', '"'] ∨
      ∃ rest, jsonChar c = '\\' :: rest ∧ ∀ d ∈ rest, d ∈ escapeChars := by
  have hhex : ∀ code, ∀ d ∈ 'u' :: hexFour code, d ∈ escapeChars := by
    intro code d hd
    rcases List.mem_cons.mp hd with rfl | hd
    · decide
    · exact mem_escapeChars_of_hexFour hd
  have hwritten := Json.written_jsonChar c
  generalize jsonChar c = text at hwritten ⊢
  cases hwritten with
  | @escape letter hletter _ _ =>
    have hletters : ∀ own ∈ Json.escapeLetters, own = '"' ∨ own ∈ escapeChars := by decide
    rcases hletters letter hletter with rfl | hmem
    · exact .inr (.inl rfl)
    · exact .inr (.inr ⟨[letter], rfl, by simpa using hmem⟩)
  | plain hquote hslash _ => exact .inl ⟨rfl, hquote, hslash⟩
  | hex _ => exact .inr (.inr ⟨_, rfl, hhex _⟩)
  | pair _ =>
    refine .inr (.inr ⟨_, rfl, fun d hd => ?_⟩)
    rcases List.mem_append.mp hd with hd | hd
    · exact hhex _ d hd
    · rcases List.mem_cons.mp hd with rfl | hd
      · decide
      · exact hhex _ d hd

/-- What follows a letter that stands for itself is a text of letters. -/
theorem Escaped.tail (htext : Escaped text) (hcons : text = c :: rest) (hslash : c ≠ '\\')
    (hquote : c ≠ '"') : Escaped rest := by
  cases htext with
  | close => exact absurd (List.cons.inj hcons).1.symm hquote
  | quote hrest => exact absurd (List.cons.inj hcons).1.symm hquote
  | letter d hrest =>
    rcases jsonChar_cases d with ⟨hd, -, -⟩ | hd | ⟨more, hd, -⟩
    · rw [hd] at hcons
      cases hcons
      exact hrest
    all_goals
      rw [hd] at hcons
      exact absurd (List.cons.inj hcons).1.symm hslash

theorem Escaped.cons (hc : jsonChar c = [c]) (hrest : Escaped rest) : Escaped (c :: rest) := by
  have hletter := hrest.letter c
  rwa [hc] at hletter

theorem Escaped.append (htext : ∀ c ∈ text, jsonChar c = [c]) (hrest : Escaped rest) :
    Escaped (text ++ rest) := by
  induction text with
  | nil => exact hrest
  | cons c text ih =>
    exact (ih fun d hd => htext d (List.mem_cons_of_mem c hd)).cons (htext c List.mem_cons_self)

theorem Escaped.dropWhile (hescape : ∀ d ∈ escapeChars, keep d = true)
    (hquote : keep '"' = false) (htext : Escaped text) : Escaped (text.dropWhile keep) := by
  induction htext with
  | close =>
    rw [ending, List.dropWhile_cons_of_neg (by simp [hquote])]
    exact .close
  | quote hrest =>
    rw [List.dropWhile_cons_of_neg (by simp [hquote])]
    exact hrest.quote
  | letter c hrest ih =>
    rcases jsonChar_cases c with ⟨hc, -, -⟩ | hc | ⟨more, hc, hmore⟩
    · rw [hc, List.singleton_append]
      by_cases hkeep : keep c = true
      · rwa [List.dropWhile_cons_of_pos hkeep]
      · rw [List.dropWhile_cons_of_neg hkeep]
        exact hrest.cons hc
    · -- The quote of an escape stays without its backslash.
      rw [hc, List.cons_append, List.singleton_append,
        List.dropWhile_cons_of_pos (hescape _ (by decide)),
        List.dropWhile_cons_of_neg (by simp [hquote])]
      exact hrest.quote
    · have hall : ∀ d ∈ jsonChar c, keep d = true := by
        intro d hd
        rw [hc] at hd
        rcases List.mem_cons.mp hd with rfl | hd
        · exact hescape _ (by decide)
        · exact hescape d (hmore d hd)
      rwa [List.dropWhile_append_of_pos hall]

/-- A text that is cut between two letters. -/
theorem Escaped.cut (hescape : ∀ d ∈ escapeChars, keep d = true) (hquote : keep '"' = true)
    (hbrace : keep '}' = true) (htext : Escaped text) (hcut : text.dropWhile keep ≠ []) :
    Escaped (text.dropWhile keep) ∧
      ∀ new, Escaped new → Escaped (text.takeWhile keep ++ new) := by
  induction htext with
  | close =>
    refine absurd ?_ hcut
    rw [ending, List.dropWhile_cons_of_pos hquote, List.dropWhile_cons_of_pos hbrace,
      List.dropWhile_nil]
  | quote hrest ih =>
    rw [List.dropWhile_cons_of_pos hquote] at hcut ⊢
    obtain ⟨hdrop, htake⟩ := ih hcut
    rw [List.takeWhile_cons_of_pos hquote]
    exact ⟨hdrop, fun new hnew => (htake new hnew).quote⟩
  | letter c hrest ih =>
    by_cases hall : ∀ d ∈ jsonChar c, keep d = true
    · rw [List.dropWhile_append_of_pos hall] at hcut ⊢
      obtain ⟨hdrop, htake⟩ := ih hcut
      refine ⟨hdrop, fun new hnew => ?_⟩
      rw [List.takeWhile_append_of_pos hall, List.append_assoc]
      exact (htake new hnew).letter c
    · rcases jsonChar_cases c with ⟨hc, -, -⟩ | hc | ⟨more, hc, hmore⟩
      · have hkeep : ¬ keep c = true := fun hkeep => hall (by
          rw [hc]
          intro d hd
          rwa [List.mem_singleton.mp hd])
        rw [hc, List.singleton_append, List.dropWhile_cons_of_neg hkeep,
          List.takeWhile_cons_of_neg hkeep]
        exact ⟨hrest.cons hc, fun new hnew => hnew⟩
      · refine absurd (fun d hd => ?_) hall
        rw [hc] at hd
        rcases List.mem_cons.mp hd with rfl | hd
        · exact hescape _ (by decide)
        · rwa [List.mem_singleton.mp hd]
      · refine absurd (fun d hd => ?_) hall
        rw [hc] at hd
        rcases List.mem_cons.mp hd with rfl | hd
        · exact hescape _ (by decide)
        · exact hescape d (hmore d hd)

/-! ## What is found in a text of letters -/

/-- What is found ends between two letters, begins with none of an escape or of the ending,
and is replaced by such a text. -/
structure Respects (find : Text → Option (ℕ × Text)) : Prop where
  head : ∀ c rest, c ∈ escapeChars ∨ c ∈ ending → find (c :: rest) = none
  found : ∀ text length replacement, Escaped text → find text = some (length, replacement) →
    0 < length ∧ Escaped (text.drop length) ∧
      ∀ new, Escaped new → Escaped (replacement ++ new)

theorem Escaped.ne_nil (htext : Escaped text) : text ≠ [] := by
  induction htext with
  | close => exact List.cons_ne_nil _ _
  | quote _ => exact List.cons_ne_nil _ _
  | letter c _ ih => exact fun hnil => ih (List.append_eq_nil_iff.mp hnil).2

/-- The ending has a quote. -/
theorem Escaped.mem_quote (htext : Escaped text) : '"' ∈ text := by
  induction htext with
  | close => exact List.mem_cons_self
  | quote _ => exact List.mem_cons_self
  | letter c _ ih => exact List.mem_append_right _ ih

/-- The ending has a brace at its end. -/
theorem Escaped.exists_append (htext : Escaped text) : ∃ before, text = before ++ ['}'] := by
  induction htext with
  | close => exact ⟨['"'], rfl⟩
  | quote _ ih =>
    obtain ⟨before, rfl⟩ := ih
    exact ⟨'"' :: before, rfl⟩
  | letter c _ ih =>
    obtain ⟨before, rfl⟩ := ih
    exact ⟨jsonChar c ++ before, (List.append_assoc _ _ _).symm⟩

/-- Nothing is found in an escape. -/
theorem Respects.substitute_escape (hfind : Respects find)
    (hc : ∀ d ∈ jsonChar c, d ∈ escapeChars ∨ d ∈ ending) :
    substitute find (jsonChar c ++ rest) = jsonChar c ++ substitute find rest := by
  refine substitute_append fun before after hsplit hafter => ?_
  cases after with
  | nil => exact absurd rfl hafter
  | cons d after => exact hfind.head d _ (hc d (by simp [hsplit]))

theorem Respects.substitute (hfind : Respects find) (htext : Escaped text) :
    Escaped (substitute find text) := by
  induction hlength : text.length using Nat.strong_induction_on generalizing text with
  | _ size ih =>
    subst hlength
    cases hfound : find text with
    | some found =>
      obtain ⟨length, replacement⟩ := found
      obtain ⟨hpos, hdrop, hnew⟩ := hfind.found text length replacement htext hfound
      obtain ⟨length, rfl⟩ := Nat.exists_eq_succ_of_ne_zero (Nat.ne_of_gt hpos)
      rw [substitute_found hfound htext.ne_nil]
      have hshorter : (text.drop (length + 1)).length < text.length := by
        have htextPos := List.length_pos_of_ne_nil htext.ne_nil
        rw [List.length_drop]
        omega
      exact hnew _ (ih _ hshorter hdrop rfl)
    | none =>
      cases htext with
      | close =>
        rw [ending, substitute_cons hfound, substitute_cons (hfind.head _ _ (.inr (by decide)))]
        exact .close
      | quote hrest =>
        rw [substitute_cons hfound]
        exact (ih _ (Nat.lt_succ_self _) hrest rfl).quote
      | @letter c rest hrest =>
        have hshorter : rest.length < (jsonChar c ++ rest).length := by
          rcases jsonChar_cases c with ⟨hc, -, -⟩ | hc | ⟨more, hc, -⟩
          all_goals
            rw [List.length_append, hc, List.length_cons]
            omega
        have hlater := ih _ hshorter hrest rfl
        rcases jsonChar_cases c with ⟨hc, -, -⟩ | hc | ⟨more, hc, hmore⟩
        · rw [hc, List.singleton_append] at hfound ⊢
          rw [substitute_cons hfound]
          exact hlater.cons hc
        · rw [hfind.substitute_escape (by rw [hc]; decide)]
          exact hlater.letter c
        · rw [hfind.substitute_escape fun d hd => ?_]
          · exact hlater.letter c
          · rw [hc] at hd
            rcases List.mem_cons.mp hd with rfl | hd
            · exact .inl (by decide)
            · exact .inl (hmore d hd)

/-! ## The patterns respect letters -/

theorem Escaped.afterWord (hword : ∀ letter ∈ word, sameLetter letter '"' = false ∧
      sameLetter letter '\\' = false) (htext : Escaped text)
    (hafter : afterWord word text = some rest) :
    Escaped rest ∧ rest = text.drop word.length := by
  induction word generalizing text with
  | nil =>
    cases hafter
    exact ⟨htext, rfl⟩
  | cons letter word ih =>
    cases text with
    | nil => cases hafter
    | cons c text =>
      rw [IngestScrub.afterWord] at hafter
      split at hafter
      next hsame =>
        have hne := hword letter List.mem_cons_self
        have htail := htext.tail rfl (fun hslash => by simp [hslash, hne.2] at hsame)
          (fun hquote => by simp [hquote, hne.1] at hsame)
        exact ih (fun other hother => hword other (List.mem_cons_of_mem letter hother)) htail
          hafter
      · cases hafter

theorem respects_findPassword : Respects findPassword where
  head c rest hc := by
    have hnot : ∀ d ∈ escapeChars ++ ending, sameLetter 'p' d = false := by decide
    have hword : afterWord passwordWord (c :: rest) = none :=
      if_neg (Bool.eq_false_iff.mp (hnot c (List.mem_append.mpr hc)))
    rw [findPassword, hword]
    rfl
  found text length replacement htext hfound := by
    obtain ⟨rest, hafter, hvalue⟩ := Option.bind_eq_some_iff.mp hfound
    dsimp only at hvalue
    split at hvalue
    · cases hvalue
    · cases hvalue
      obtain ⟨hrest, hdrop⟩ := htext.afterWord (by decide) hafter
      have hwhole : text.drop (passwordWord.length + (rest.takeWhile isValueChar).length) =
          rest.dropWhile isValueChar := by
        have hsplit := List.takeWhile_append_dropWhile (p := isValueChar) (l := rest)
        rw [← List.drop_drop, ← hdrop]
        nth_rewrite 2 [← hsplit]
        rw [List.drop_left]
      refine ⟨Nat.lt_of_lt_of_le (by decide) (Nat.le_add_right _ _), ?_, fun new hnew =>
        hnew.append (by decide)⟩
      rw [hwhole]
      exact hrest.dropWhile (by decide) (by decide)

theorem respects_findCredentials : Respects findCredentials where
  head c rest hc := by
    have hcolon : c ≠ ':' := by
      rintro rfl
      revert hc
      decide
    unfold findCredentials
    split
    next text htext => exact absurd (List.cons.inj htext).1 hcolon
    · rfl
  found text length replacement htext hfound := by
    unfold findCredentials at hfound
    split at hfound
    next text =>
      dsimp only at hfound
      split at hfound
      next tail hcolon =>
        split at hfound
        · cases hfound
        next hnot =>
          cases hfound
          have hat : (tail.dropWhile isSecretChar).head? = some '@' := by
            by_contra hat
            exact hnot (.inr (.inr hat))
          obtain ⟨rest, hrest⟩ := List.head?_eq_some_iff.mp hat
          have hescaped : Escaped text :=
            ((htext.tail rfl (by decide) (by decide)).tail rfl (by decide) (by decide)).tail
              rfl (by decide) (by decide)
          obtain ⟨huser, hnew⟩ := hescaped.cut
            (show ∀ d ∈ escapeChars, isUserChar d = true by decide) (by decide)
            (by decide) (by simp [hcolon])
          have htail : Escaped tail := huser.tail hcolon (by decide) (by decide)
          obtain ⟨hsecret, -⟩ := htail.cut
            (show ∀ d ∈ escapeChars, isSecretChar d = true by decide) (by decide)
            (by decide) (by simp [hrest])
          have hbehind : Escaped rest := hsecret.tail hrest (by decide) (by decide)
          have hsplit : ':' :: '/' :: '/' :: text =
              (':' :: '/' :: '/' :: (text.takeWhile isUserChar ++
                ':' :: (tail.takeWhile isSecretChar ++ ['@']))) ++ rest := by
            have htext := List.takeWhile_append_dropWhile (p := isUserChar) (l := text)
            have hsecond := List.takeWhile_append_dropWhile (p := isSecretChar) (l := tail)
            rw [hcolon] at htext
            rw [hrest] at hsecond
            nth_rewrite 1 [← htext, ← hsecond]
            simp only [List.cons_append, List.append_assoc, List.nil_append]
          refine ⟨Nat.succ_pos _, ?_, fun new hafter => ?_⟩
          · have hsize : (':' :: '/' :: '/' :: (text.takeWhile isUserChar ++
                ':' :: (tail.takeWhile isSecretChar ++ ['@']))).length =
                (text.takeWhile isUserChar).length +
                  (tail.takeWhile isSecretChar).length + 5 := by
              simp only [List.length_cons, List.length_append, List.length_nil]
              omega
            rw [hsplit, List.drop_left' hsize]
            exact hbehind
          · have hmark : Escaped (":***@".toList ++ new) := hafter.append (by decide)
            rw [List.append_assoc, List.append_assoc]
            exact (hnew _ hmark).append (by decide)
      · cases hfound
    · cases hfound

/-- **The text of a string is scrubbed into letters and quotes**, and its ending stays. -/
theorem Escaped.scrub (htext : Escaped text) : Escaped (scrub text) :=
  respects_findCredentials.substitute (respects_findPassword.substitute htext)

/-! ## Before a string -/

/-- A word that no quote belongs to is found before the quote. -/
theorem exists_of_afterWord (hword : ∀ letter ∈ word, sameLetter letter '"' = false)
    (hafter : afterWord word (text ++ '"' :: rest) = some new) :
    ∀ letter ∈ word, ∃ c ∈ text, sameLetter letter c = true := by
  induction word generalizing text with
  | nil => exact fun letter hletter => absurd hletter List.not_mem_nil
  | cons first word ih =>
    have hfirst := hword first List.mem_cons_self
    cases text with
    | nil => simp [afterWord, hfirst] at hafter
    | cons c text =>
      rw [List.cons_append, afterWord] at hafter
      split at hafter
      next hsame =>
        have hlater := ih
          (fun letter hletter => hword letter (List.mem_cons_of_mem first hletter)) hafter
        intro letter hletter
        rcases List.mem_cons.mp hletter with rfl | hletter
        · exact ⟨c, List.mem_cons_self, hsame⟩
        · obtain ⟨d, hd, hd'⟩ := hlater letter hletter
          exact ⟨d, List.mem_cons_of_mem c hd, hd'⟩
      · cases hafter

theorem findPassword_eq_none (hequals : '=' ∉ text) :
    findPassword (text ++ '"' :: rest) = none := by
  cases hafter : afterWord passwordWord (text ++ '"' :: rest) with
  | none => rw [findPassword, hafter]; rfl
  | some new =>
    obtain ⟨c, hc, hsame⟩ := exists_of_afterWord (by decide) hafter '=' (by decide)
    have hc' : c = '=' := (toLower_eq_iff (by decide)).mp (by simpa [sameLetter] using hsame)
    exact absurd (hc' ▸ hc) hequals

theorem findCredentials_eq_none (hslash : '/' ∉ text) :
    findCredentials (text ++ '"' :: rest) = none := by
  unfold findCredentials
  split
  next heq =>
    match text, heq with
    | [], heq => cases heq
    | [_], heq => cases heq
    | _ :: c :: _, heq =>
      simp only [List.cons_append, List.cons.injEq] at heq
      exact absurd (by simp [heq.2.1]) hslash
  · rfl

/-- Nothing is substituted in a text up to a quote. -/
theorem substitute_before_quote
    (hnone : ∀ before after, text = before ++ after → find (after ++ '"' :: rest) = none) :
    substitute find (text ++ '"' :: rest) = text ++ '"' :: substitute find rest := by
  rw [substitute_append fun before after hsplit _ => hnone before after hsplit]
  rw [substitute_cons (hnone text [] (List.append_nil text).symm)]

/-- A beginning without the marks of the patterns stays. -/
theorem scrub_append (hequals : '=' ∉ text) (hslash : '/' ∉ text) :
    scrub (text ++ '"' :: rest) = text ++ '"' :: scrub rest := by
  have hfirst : substitute findPassword (text ++ '"' :: rest) =
      text ++ '"' :: substitute findPassword rest :=
    substitute_before_quote fun before after hsplit =>
      findPassword_eq_none fun hmem => hequals (by simp [hsplit, hmem])
  have hsecond : substitute findCredentials (text ++ '"' :: substitute findPassword rest) =
      text ++ '"' :: substitute findCredentials (substitute findPassword rest) :=
    substitute_before_quote fun before after hsplit =>
      findCredentials_eq_none fun hmem => hslash (by simp [hsplit, hmem])
  rw [scrub, hfirst, hsecond, scrub]

/-! ## The ending stays -/

theorem length_of_afterWord (hafter : afterWord word text = some rest) :
    text.length = word.length + rest.length := by
  induction word generalizing text with
  | nil =>
    cases hafter
    exact (Nat.zero_add _).symm
  | cons letter word ih =>
    cases text with
    | nil => cases hafter
    | cons c text =>
      rw [afterWord] at hafter
      split at hafter
      · rw [List.length_cons, List.length_cons, ih hafter]
        omega
      · cases hafter

theorem bounded_findPassword : Bounded findPassword := by
  intro text length replacement hfound
  obtain ⟨rest, hafter, hvalue⟩ := Option.bind_eq_some_iff.mp hfound
  have hlength := length_of_afterWord hafter
  have hpos : 0 < passwordWord.length := by decide
  have htake := (List.takeWhile_prefix (l := rest) isValueChar).length_le
  dsimp only at hvalue
  split at hvalue
  · cases hvalue
  · cases hvalue
    omega

theorem bounded_findCredentials : Bounded findCredentials := by
  intro text length replacement hfound
  unfold findCredentials at hfound
  split at hfound
  next text =>
    dsimp only at hfound
    split at hfound
    next rest hcolon =>
      split at hfound
      · cases hfound
      next hnot =>
        cases hfound
        have hat : (rest.dropWhile isSecretChar).head? = some '@' := by
          by_contra hat
          exact hnot (.inr (.inr hat))
        obtain ⟨behind, hbehind⟩ := List.head?_eq_some_iff.mp hat
        have huser := congrArg List.length
          (List.takeWhile_append_dropWhile (p := isUserChar) (l := text))
        have hsecret := congrArg List.length
          (List.takeWhile_append_dropWhile (p := isSecretChar) (l := rest))
        rw [hcolon, List.length_append, List.length_cons] at huser
        rw [hbehind, List.length_append, List.length_cons] at hsecret
        simp only [List.length_cons]
        omega
    · cases hfound
  · cases hfound

/-- The ending is no part of a word. -/
theorem afterWord_append (hword : ∀ letter ∈ word, sameLetter letter '"' = false) :
    afterWord word (text ++ ending) = (afterWord word text).map (· ++ ending) := by
  induction word generalizing text with
  | nil => rfl
  | cons letter word ih =>
    have hquote := hword letter List.mem_cons_self
    have hlater := fun text => @ih text fun other hother =>
      hword other (List.mem_cons_of_mem letter hother)
    cases text with
    | nil => simp [afterWord, ending, hquote]
    | cons c text =>
      rw [List.cons_append, afterWord, afterWord]
      split
      · exact hlater text
      · rfl

theorem findPassword_append : findPassword (text ++ ending) = findPassword text := by
  have hvalue : ∀ rest : Text,
      (rest ++ ending).takeWhile isValueChar = rest.takeWhile isValueChar := by
    intro rest
    rw [List.takeWhile_append]
    split
    next hall =>
      have hnone : ending.takeWhile isValueChar = [] := by decide
      rw [hnone, List.append_nil]
      exact ((List.takeWhile_prefix isValueChar).eq_of_length hall).symm
    · rfl
  rw [findPassword, afterWord_append (by decide), findPassword]
  cases afterWord passwordWord text with
  | none => rfl
  | some rest => simp only [Option.map_some, Option.bind_some, hvalue]

/-- Whether the kept beginning of a text goes on in what follows it, which is all kept. -/
theorem cut_append (hrest : rest.dropWhile keep = []) (text : Text) :
    ((text ++ rest).dropWhile keep = [] ∧ text.dropWhile keep = []) ∨
      ((text ++ rest).dropWhile keep = text.dropWhile keep ++ rest ∧
        (text ++ rest).takeWhile keep = text.takeWhile keep) := by
  induction text with
  | nil => exact .inl ⟨hrest, rfl⟩
  | cons c text ih =>
    by_cases hc : keep c = true
    · rw [List.cons_append, List.dropWhile_cons_of_pos hc, List.dropWhile_cons_of_pos hc,
        List.takeWhile_cons_of_pos hc, List.takeWhile_cons_of_pos hc]
      exact ih.imp id fun h => ⟨h.1, congrArg (c :: ·) h.2⟩
    · rw [List.cons_append, List.dropWhile_cons_of_neg hc, List.dropWhile_cons_of_neg hc,
        List.takeWhile_cons_of_neg hc, List.takeWhile_cons_of_neg hc]
      exact .inr ⟨rfl, rfl⟩

/-- Nothing is found where no authority begins. -/
theorem findCredentials_of_ne (htext : ∀ rest, text ≠ ':' :: '/' :: '/' :: rest) :
    findCredentials text = none := by
  unfold findCredentials
  split
  next rest => exact absurd rfl (htext rest)
  · rfl

/-- What is found of an authority is found before the ending. -/
theorem findCredentials_mark_append :
    findCredentials (':' :: '/' :: '/' :: (text ++ ending)) =
      findCredentials (':' :: '/' :: '/' :: text) := by
  rw [findCredentials, findCredentials]
  rcases cut_append (show ending.dropWhile isUserChar = [] by decide) text with
    ⟨huser, huser'⟩ | ⟨huser, huser'⟩
  · rw [huser, huser']
  · rw [huser, huser']
    match text.dropWhile isUserChar with
    | [] => rfl
    | d :: rest =>
      by_cases hcolon : d = ':'
      · subst hcolon
        rw [List.cons_append]
        rcases cut_append (show ending.dropWhile isSecretChar = [] by decide) rest with
          ⟨hsecret, hsecret'⟩ | ⟨hsecret, hsecret'⟩
        · simp only [hsecret, hsecret', List.head?_nil, ne_eq, reduceCtorEq, not_false_iff,
            or_true, if_true]
        · have hhead : (rest.dropWhile isSecretChar ++ ending).head? = some '@' ↔
              (rest.dropWhile isSecretChar).head? = some '@' := by
            cases rest.dropWhile isSecretChar with
            | nil => exact ⟨fun h => absurd h (by decide), fun h => nomatch h⟩
            | cons e more => exact Iff.rfl
          simp only [hsecret, hsecret', ne_eq, hhead]
      · simp [hcolon]

theorem findCredentials_append : findCredentials (text ++ ending) = findCredentials text := by
  match text with
  | [] => rfl
  | [a] =>
    have hne : ∀ rest, [a] ++ ending ≠ ':' :: '/' :: '/' :: rest := fun rest h =>
      absurd (List.cons.inj (List.cons.inj h).2).1 (show '"' ≠ '/' by decide)
    rw [findCredentials_of_ne hne, findCredentials_of_ne fun rest h => by cases h]
  | [a, b] =>
    have hne : ∀ rest, [a, b] ++ ending ≠ ':' :: '/' :: '/' :: rest := fun rest h =>
      absurd (List.cons.inj (List.cons.inj (List.cons.inj h).2).2).1 (show '"' ≠ '/' by decide)
    rw [findCredentials_of_ne hne, findCredentials_of_ne fun rest h => by cases h]
  | a :: b :: c :: text =>
    by_cases hmark : a = ':' ∧ b = '/' ∧ c = '/'
    · obtain ⟨rfl, rfl, rfl⟩ := hmark
      exact findCredentials_mark_append
    · have hne : ∀ text rest : Text, a :: b :: c :: text ≠ ':' :: '/' :: '/' :: rest := by
        rintro text rest h
        cases h
        exact hmark ⟨rfl, rfl, rfl⟩
      rw [findCredentials_of_ne (hne text)]
      exact findCredentials_of_ne (hne _)

/-- **The ending is never scrubbed.** -/
theorem scrub_append_ending (text : Text) : scrub (text ++ ending) = scrub text ++ ending := by
  have hfirst : ∀ text : Text, substitute findPassword (text ++ ending) =
      substitute findPassword text ++ substitute findPassword ending := fun text =>
    substitute_append_rest bounded_findPassword fun _ _ _ _ => findPassword_append
  have hsecond : ∀ text : Text, substitute findCredentials (text ++ ending) =
      substitute findCredentials text ++ substitute findCredentials ending := fun text =>
    substitute_append_rest bounded_findCredentials fun _ _ _ _ => findCredentials_append
  have hending : substitute findPassword ending = ending ∧
      substitute findCredentials ending = ending := by decide
  rw [scrub, hfirst, hending.1, hsecond, hending.2, scrub]

/-! ## No quote behind a mark -/

/-- A blank or a comma. -/
def isMark (c : Char) : Bool := Json.isBlank c || c = ','

/-- A quote stands behind neither. -/
def Joins (c d : Char) : Prop := d = '"' → isMark c = false

instance (c d : Char) : Decidable (Joins c d) := inferInstanceAs (Decidable (_ → _))

theorem joins_of_ne {d : Char} (hd : d ≠ '"') : Joins c d := fun h => absurd h hd

theorem fits_findPassword : Fits Joins findPassword := by
  intro text length replacement htext hfound
  obtain ⟨rest, -, hvalue⟩ := Option.bind_eq_some_iff.mp hfound
  dsimp only at hvalue
  split at hvalue
  · cases hvalue
  · cases hvalue
    refine ⟨by decide, by decide, fun first hfirst item => ?_, fun last hlast item => ?_⟩
    · cases hfirst
      exact joins_of_ne (by decide)
    · cases hlast
      exact fun _ => by decide

theorem fits_findCredentials : Fits Joins findCredentials := by
  intro text length replacement htext hfound
  unfold findCredentials at hfound
  split at hfound
  next text =>
    dsimp only at hfound
    split at hfound
    · split at hfound
      · cases hfound
      · cases hfound
        have huser : (':' :: '/' :: '/' :: text.takeWhile isUserChar).IsChain Joins := by
          have hsplit := List.takeWhile_append_dropWhile (p := isUserChar) (l := text)
          have hwhole : ((':' :: '/' :: '/' :: text.takeWhile isUserChar) ++
              text.dropWhile isUserChar).IsChain Joins := by
            rwa [List.cons_append, List.cons_append, List.cons_append, hsplit]
          exact hwhole.left_of_append
        have hmark : (":***@".toList).IsChain Joins := by decide
        refine ⟨List.cons_ne_nil _ _, ?_, fun first hfirst item => ?_, fun last hlast item => ?_⟩
        · rw [← List.append_assoc]
          refine huser.append hmark fun last _ first hfirst => ?_
          cases hfirst
          exact joins_of_ne (by decide)
        · cases hfirst
          exact joins_of_ne (by decide)
        · rw [← List.append_assoc, List.getLast?_append_of_ne_nil _ (by decide)] at hlast
          cases hlast
          exact fun _ => by decide
    · cases hfound
  · cases hfound

theorem isChain_scrub (htext : text.IsChain Joins) : (scrub text).IsChain Joins :=
  fits_findCredentials.substitute bounded_findCredentials
    (fits_findPassword.substitute bounded_findPassword htext)

/-- A written quote stands behind a backslash. -/
theorem isChain_letters (text : Text) : (text.flatMap jsonChar).IsChain Joins := by
  have hhead : ∀ c, ∀ first ∈ (jsonChar c).head?, first ≠ '"' := by
    intro c first hfirst
    rcases jsonChar_cases c with ⟨hc, hquote, -⟩ | hc | ⟨more, hc, -⟩
    · rw [hc] at hfirst
      cases hfirst
      exact hquote
    · rw [hc] at hfirst
      cases hfirst
      decide
    · rw [hc] at hfirst
      cases hfirst
      decide
  have hescape : ∀ more : Text, (∀ d ∈ more, d ∈ escapeChars) → ∀ d, (d :: more).IsChain Joins := by
    have hquote : '"' ∉ escapeChars := by decide
    intro more hmore
    induction more with
    | nil => exact fun d => .singleton d
    | cons first more ih =>
      intro d
      have hfirst := hmore first List.mem_cons_self
      exact (ih (fun e he => hmore e (List.mem_cons_of_mem first he)) first).cons_cons
        (joins_of_ne fun hsame => hquote (hsame ▸ hfirst))
  induction text with
  | nil => exact .nil
  | cons c text ih =>
    rw [List.flatMap_cons]
    refine List.IsChain.append ?_ ih fun last _ first hfirst => ?_
    · rcases jsonChar_cases c with ⟨hc, -, -⟩ | hc | ⟨more, hc, hmore⟩
      · rw [hc]
        exact .singleton c
      · rw [hc]
        decide
      · rw [hc]
        exact hescape more hmore '\\'
    · cases text with
      | nil => cases hfirst
      | cons d text =>
        have hne : jsonChar d ≠ [] := by
          rcases jsonChar_cases d with ⟨hd, -, -⟩ | hd | ⟨more, hd, -⟩
          all_goals
            rw [hd]
            exact List.cons_ne_nil _ _
        rw [List.flatMap_cons, List.head?_append_of_ne_nil _ hne] at hfirst
        exact joins_of_ne (hhead d first hfirst)

end DbtCraft.Routers.IngestScrub

/-
# The output of git

What `git log` and `git status --porcelain` print under the formats that `GitService` asks for,
and the parsers of `get_log` and `get_status`. A log line is split at bars, so an author or an
address must have none; a status line is cut behind its two letters, which is the path only where
git neither quotes it nor puts the old path in front of it.
-/

import DbtCraft.Python.Splitting

namespace DbtCraft.Services.GitOutput

open DbtCraft.Python

/-! ## The log -/

/-- A commit as `git log` prints it. -/
structure Commit where
  hash : List Char
  author : List Char
  email : List Char
  date : List Char
  subject : List Char
  hash_ne_nil : hash ≠ []
  hash_hex : ∀ c ∈ hash, c.isAlphanum = true
  /-- A date of `--date=iso`. -/
  date_plain : '|' ∉ date
  /-- Every field is on one line. -/
  one_line : '\n' ∉ author ++ email ++ date ++ subject

/-- An entry of the answer of `get_log`. -/
structure LogEntry where
  hash : List Char
  author : List Char
  email : List Char
  date : List Char
  message : List Char
  deriving DecidableEq

def Commit.entry (commit : Commit) : LogEntry :=
  ⟨commit.hash, commit.author, commit.email, commit.date, commit.subject⟩

/-- `%H|%an|%ae|%ad|%s`. -/
def LogEntry.line (entry : LogEntry) : List Char :=
  entry.hash ++ '|' :: (entry.author ++ '|' :: (entry.email ++ '|' :: (entry.date ++
    '|' :: entry.message)))

/-- The output of `git log`. -/
def logOutput (commits : List Commit) : List Char :=
  joinLines (commits.map fun commit => commit.entry.line)

/-- One line in the loop of `get_log`. -/
def parseLine (line : List Char) : Option LogEntry :=
  match splitMax '|' 4 line with
  | hash :: author :: email :: date :: message :: _ => some ⟨hash, author, email, date, message⟩
  | _ => none

/-- The commits of `get_log`. -/
def parseLog (stdout : List Char) : List LogEntry :=
  (split '\n' (strip (String.ofList stdout)).toList).filterMap parseLine

/-! ## The status -/

/-- An entry as `git status` has it. -/
structure Change where
  staged : Char
  unstaged : Char
  path : List Char
  /-- The old path of a rename or a copy. -/
  original : Option (List Char) := none
  path_ne_nil : path ≠ []
  letters : staged ≠ '\n' ∧ unstaged ≠ '\n'

/-- One byte in octal. -/
def octal (byte : ℕ) : List Char :=
  ['\\', Nat.digitChar (byte / 64 % 8), Nat.digitChar (byte / 8 % 8), Nat.digitChar (byte % 8)]

/-- The letter of an escape of the language C. -/
def escapeLetter (c : Char) : Option Char :=
  match c.toNat with
  | 7 => some 'a'
  | 8 => some 'b'
  | 9 => some 't'
  | 10 => some 'n'
  | 11 => some 'v'
  | 12 => some 'f'
  | 13 => some 'r'
  | 34 => some '"'
  | 92 => some '\\'
  | _ => none

/-- A character that git prints as it is. -/
def isPrinted (c : Char) : Bool := decide (32 ≤ c.toNat) && decide (c.toNat < 127)

/-- A character between quotes. -/
def quoteChar (c : Char) : List Char :=
  match escapeLetter c with
  | some letter => ['\\', letter]
  | none =>
    if isPrinted c then [c]
    else (String.utf8EncodeChar c).flatMap fun byte => octal byte.toNat

/-- A path that is not quoted. -/
def isPlain (path : List Char) : Bool :=
  path.all fun c => isPrinted c && (escapeLetter c).isNone && c ≠ ' '

/-- `quote_path` of git, with the quotes around a path with a space. -/
def quotePath (path : List Char) : List Char :=
  if isPlain path then path else '"' :: path.flatMap quoteChar ++ ['"']

/-- What stands behind the letters. -/
def Change.shown (change : Change) : List Char :=
  match change.original with
  | some original => quotePath original ++ " -> ".toList ++ quotePath change.path
  | none => quotePath change.path

def Change.line (change : Change) : List Char :=
  change.staged :: change.unstaged :: ' ' :: change.shown

/-- The output of `git status --porcelain`; each line ends with a line feed. -/
def statusOutput (changes : List Change) : List Char :=
  joinLines (changes.map Change.line ++ [[]])

/-- One line in the loop of `get_status`. -/
def parseStatusLine (line : List Char) : Option (List Char × List Char) :=
  let line := rstrip line
  if 4 ≤ line.length ∧ line.drop 3 ≠ [] then some (line.take 2, line.drop 3) else none

/-- The changes of `get_status`. -/
def parseStatus (stdout : List Char) : List (List Char × List Char) :=
  (split '\n' stdout).filterMap parseStatusLine

variable {line text : List Char} {commits : List Commit} {entry : LogEntry}

/-! ## One line of the log -/

/-- The fields before the message have no bar. -/
def LogEntry.Plain (entry : LogEntry) : Prop :=
  '|' ∉ entry.hash ∧ '|' ∉ entry.author ∧ '|' ∉ entry.email ∧ '|' ∉ entry.date

theorem parseLine_line (hplain : entry.Plain) : parseLine entry.line = some entry := by
  obtain ⟨hhash, hauthor, hemail, hdate⟩ := hplain
  rw [parseLine, LogEntry.line, splitMax_append hhash, splitMax_append hauthor,
    splitMax_append hemail, splitMax_append hdate, splitMax]

/-- What is read from a line is written as that line. -/
theorem line_of_parseLine (hparse : parseLine line = some entry) :
    entry.line = line ∧ entry.Plain := by
  rw [parseLine] at hparse
  split at hparse
  next hash author email date message more hsplit =>
    cases hparse
    obtain ⟨afterHash, hline, hhash, hsplit⟩ := splitMax_cons hsplit
    obtain ⟨afterAuthor, hafterHash, hauthor, hsplit⟩ := splitMax_cons hsplit
    obtain ⟨afterEmail, hafterAuthor, hemail, hsplit⟩ := splitMax_cons hsplit
    obtain ⟨afterDate, hafterEmail, hdate, hsplit⟩ := splitMax_cons hsplit
    rw [splitMax] at hsplit
    cases hsplit
    refine ⟨?_, hhash, hauthor, hemail, hdate⟩
    rw [hline, hafterHash, hafterAuthor, hafterEmail, LogEntry.line]
  · cases hparse

theorem Commit.hash_plain (commit : Commit) : '|' ∉ commit.hash := by
  intro hbar
  have halpha := commit.hash_hex '|' hbar
  exact absurd halpha (by decide)

/-- A line of the log has no line feed. -/
theorem Commit.one_line_entry (commit : Commit) : '\n' ∉ commit.entry.line := by
  have hhash : '\n' ∉ commit.hash := by
    intro hfeed
    have halpha := commit.hash_hex '\n' hfeed
    exact absurd halpha (by decide)
  have hrest := commit.one_line
  simp only [List.mem_append, not_or] at hrest
  simp [LogEntry.line, Commit.entry, hhash, hrest]

theorem Commit.entry_plain {commit : Commit} (hbars : '|' ∉ commit.author ∧ '|' ∉ commit.email) :
    commit.entry.Plain :=
  ⟨commit.hash_plain, hbars.1, hbars.2, commit.date_plain⟩

/-- The lines from which something is read. -/
theorem lines_sublist {lines : List (List Char)} {entries : List LogEntry}
    (hparse : lines.filterMap parseLine = entries) : List.Sublist (entries.map LogEntry.line) lines := by
  subst hparse
  induction lines with
  | nil => exact List.Sublist.slnil
  | cons line rest ih =>
    cases hline : parseLine line with
    | none =>
      rw [List.filterMap_cons_none hline]
      exact ih.cons line
    | some entry =>
      rw [List.filterMap_cons_some hline, List.map_cons, (line_of_parseLine hline).1]
      exact ih.cons_cons line

theorem lineChars_le {own lines : List (List Char)} (hsub : List.Sublist own lines) :
    lineChars own ≤ lineChars lines := by
  induction hsub with
  | slnil => exact Nat.le_refl 0
  | cons line _ ih =>
    rw [lineChars_cons]
    exact Nat.le_add_left_of_le ih
  | cons_cons line _ ih =>
    rw [lineChars_cons, lineChars_cons]
    exact Nat.add_le_add_left ih _

/-! ## The whole log -/

/-- The subject of the last commit does not end with white space. -/
def EndsPlain (commits : List Commit) : Prop :=
  ∀ commit ∈ commits.getLast?, ∀ c ∈ commit.subject.getLast?, isSpace c = false

theorem isSpace_of_rstrip {c : Char} (hstrip : rstrip (text ++ [c]) = text ++ [c]) :
    isSpace c = false := by
  rw [Bool.eq_false_iff]
  intro hspace
  have hshort : (rstrip (text ++ [c])).length ≤ text.length := by
    rw [rstrip, List.reverse_append, List.reverse_singleton, List.singleton_append,
      List.dropWhile_cons_of_pos hspace]
    exact (prefix_rstrip : rstrip text <+: text).length_le
  rw [hstrip, List.length_append, List.length_singleton] at hshort
  omega

/-- The log ends with the last line. -/
theorem logOutput_append (before : List Commit) (last : Commit) :
    ∃ front, logOutput (before ++ [last]) = front ++ last.entry.line := by
  rw [logOutput, List.map_append, List.map_singleton]
  cases before with
  | nil => exact ⟨[], by rw [List.map_nil, List.nil_append, joinLines_singleton, List.nil_append]⟩
  | cons first others =>
    have hfirst : (first :: others).map (fun commit => commit.entry.line) ≠ [] :=
      List.cons_ne_nil _ _
    rw [joinLines_append hfirst (List.cons_ne_nil last.entry.line []), joinLines_singleton]
    exact ⟨_, (List.append_assoc _ ['\n'] _).symm⟩

/-- A line of the log ends with the subject, or with the bar before it. -/
theorem line_append (commit : Commit) : ∃ front c, commit.entry.line = front ++ [c] ∧
    (isSpace c = false ↔ ∀ last ∈ commit.subject.getLast?, isSpace last = false) := by
  rcases List.eq_nil_or_concat commit.subject with hnone | ⟨before, last, hlast⟩
  · refine ⟨commit.hash ++ '|' :: (commit.author ++ '|' :: (commit.email ++ '|' :: commit.date)),
      '|', ?_, ?_⟩
    · simp [LogEntry.line, Commit.entry, hnone]
    · rw [hnone]
      exact iff_of_true (by decide) fun last hlast => by cases hlast
  · refine ⟨commit.hash ++ '|' :: (commit.author ++ '|' :: (commit.email ++ '|' ::
      (commit.date ++ '|' :: before))), last, ?_, ?_⟩
    · simp [LogEntry.line, Commit.entry, hlast]
    · rw [hlast, List.concat_eq_append, List.getLast?_concat]
      simp

/-- Nothing is stripped of the log when the last subject has no white space at its end. -/
theorem rstrip_logOutput : rstrip (logOutput commits) = logOutput commits ↔ EndsPlain commits := by
  rcases List.eq_nil_or_concat commits with hnone | ⟨before, last, hlast⟩
  · rw [hnone]
    exact iff_of_true rfl fun commit hcommit => by cases hcommit
  · rw [List.concat_eq_append] at hlast
    obtain ⟨front, hfront⟩ := logOutput_append before last
    obtain ⟨more, c, hline, hspace⟩ := line_append last
    have hends : EndsPlain commits ↔ isSpace c = false := by
      rw [EndsPlain, hlast, List.getLast?_concat, hspace]
      simp
    rw [hends, hlast, hfront, hline, ← List.append_assoc]
    exact ⟨isSpace_of_rstrip, rstrip_append⟩

/-- The log begins with a hash. -/
theorem strip_logOutput : (strip (String.ofList (logOutput commits))).toList =
    rstrip (logOutput commits) := by
  cases commits with
  | nil => rfl
  | cons first others =>
    cases hhash : first.hash with
    | nil => exact absurd hhash first.hash_ne_nil
    | cons c more =>
      have hc : isSpace c = false :=
        isSpace_of_isAlphanum (first.hash_hex c (hhash ▸ List.mem_cons_self))
      have hhead : ∃ rest, (String.ofList (logOutput (first :: others))).toList = c :: rest := by
        rw [String.toList_ofList, logOutput, List.map_cons, LogEntry.line, Commit.entry, hhash]
        cases others with
        | nil => exact ⟨_, by rw [List.map_nil, joinLines_singleton, List.cons_append]⟩
        | cons next more =>
          exact ⟨_, by rw [List.map_cons, joinLines_cons (List.cons_ne_nil _ _),
            List.cons_append, List.cons_append]⟩
      obtain ⟨rest, hrest⟩ := hhead
      rw [strip_of_head hrest hc, String.toList_ofList, String.toList_ofList]

theorem filterMap_parseLine (hplain : ∀ commit ∈ commits, '|' ∉ commit.author ∧ '|' ∉ commit.email) :
    (commits.map fun commit => commit.entry.line).filterMap parseLine =
      commits.map Commit.entry := by
  induction commits with
  | nil => rfl
  | cons commit rest ih =>
    have hfirst := parseLine_line (Commit.entry_plain (hplain commit List.mem_cons_self))
    rw [List.map_cons, List.map_cons, List.filterMap_cons_some hfirst,
      ih fun other hother => hplain other (List.mem_cons_of_mem commit hother)]

/-- **The log is read as git emits it** exactly when no author and no address has a bar and the
last subject does not end with white space. -/
theorem parseLog_iff : parseLog (logOutput commits) = commits.map Commit.entry ↔
    (∀ commit ∈ commits, '|' ∉ commit.author ∧ '|' ∉ commit.email) ∧ EndsPlain commits := by
  rw [parseLog, strip_logOutput]
  apply Iff.intro
  · intro hparse
    apply And.intro
    · intro commit hcommit
      have hmem : commit.entry ∈ (split '\n' (rstrip (logOutput commits))).filterMap parseLine :=
        hparse ▸ List.mem_map_of_mem hcommit
      obtain ⟨line, -, hline⟩ := List.mem_filterMap.mp hmem
      obtain ⟨-, -, hauthor, hemail, -⟩ := line_of_parseLine hline
      exact ⟨hauthor, hemail⟩
    · apply rstrip_logOutput.mp
      apply prefix_rstrip.eq_of_length_le
      cases hcommits : commits with
      | nil => exact Nat.le_refl 0
      | cons first others =>
        rw [← hcommits]
        have hsub := lineChars_le (lines_sublist hparse)
        have hown : (commits.map Commit.entry).map LogEntry.line =
            commits.map fun commit => commit.entry.line := List.map_map
        have hne : commits.map (fun commit => commit.entry.line) ≠ [] := by simp [hcommits]
        rw [hown, ← length_joinLines hne, ← length_joinLines split_ne_nil, joinLines_split] at hsub
        exact Nat.le_of_succ_le_succ hsub
  · intro ⟨hplain, hends⟩
    rw [rstrip_logOutput.mpr hends]
    cases hcommits : commits with
    | nil => rfl
    | cons first others =>
      rw [← hcommits, logOutput, split_joinLines (by simp [hcommits]), filterMap_parseLine hplain]
      intro line hline
      obtain ⟨commit, -, hcommit⟩ := List.mem_map.mp hline
      exact hcommit ▸ commit.one_line_entry

/-! ## The status -/

theorem isPrinted_of_isPlain {path : List Char} (hplain : isPlain path = true) {c : Char}
    (hc : c ∈ path) : isPrinted c = true ∧ c ≠ ' ' := by
  have hall := List.all_eq_true.mp hplain c hc
  simp only [Bool.and_eq_true, decide_eq_true_eq] at hall
  exact ⟨hall.1.1, hall.2⟩

theorem quoteChar_ne_nil (c : Char) : quoteChar c ≠ [] := by
  rw [quoteChar]
  split
  · exact List.cons_ne_nil _ _
  · split
    · exact List.cons_ne_nil _ _
    · cases hbytes : String.utf8EncodeChar c with
      | nil =>
        have hlength := String.length_utf8EncodeChar c
        have hpos := c.utf8Size_pos
        rw [hbytes, List.length_nil] at hlength
        omega
      | cons byte more => exact List.cons_ne_nil _ _

theorem length_le_flatMap (path : List Char) : path.length ≤ (path.flatMap quoteChar).length := by
  induction path with
  | nil => exact Nat.le_refl 0
  | cons c rest ih =>
    have hpos := List.length_pos_iff.mpr (quoteChar_ne_nil c)
    rw [List.flatMap_cons, List.length_append, List.length_cons]
    omega

/-- Quotes make a path longer. -/
theorem quotePath_eq_iff {path : List Char} : quotePath path = path ↔ isPlain path = true := by
  rw [quotePath]
  split
  next hplain => exact iff_of_true rfl hplain
  next hquoted =>
    apply iff_of_false _ hquoted
    intro hsame
    have hlength := congrArg List.length hsame
    have hlonger := length_le_flatMap path
    simp only [List.cons_append, List.length_cons, List.length_append] at hlength
    omega

/-- A digit of a byte is printed. -/
theorem isPrinted_digitChar : ∀ digit < 8, isPrinted (Nat.digitChar digit) = true := by decide

theorem isPrinted_octal {byte : ℕ} {c : Char} (hc : c ∈ octal byte) : isPrinted c = true := by
  simp only [octal, List.mem_cons, List.not_mem_nil, or_false] at hc
  rcases hc with rfl | rfl | rfl | rfl
  · decide
  · exact isPrinted_digitChar _ (Nat.mod_lt _ (by decide))
  · exact isPrinted_digitChar _ (Nat.mod_lt _ (by decide))
  · exact isPrinted_digitChar _ (Nat.mod_lt _ (by decide))

theorem isPrinted_escapeLetter {c letter : Char} (hletter : escapeLetter c = some letter) :
    isPrinted letter = true := by
  rw [escapeLetter] at hletter
  split at hletter
  all_goals
    cases hletter
  all_goals decide

theorem isPrinted_quoteChar {c own : Char} (hown : own ∈ quoteChar c) : isPrinted own = true := by
  rw [quoteChar] at hown
  split at hown
  next letter hletter =>
    simp only [List.mem_cons, List.not_mem_nil, or_false] at hown
    rcases hown with rfl | rfl
    · decide
    · exact isPrinted_escapeLetter hletter
  · split at hown
    next hprinted => exact List.mem_singleton.mp hown ▸ hprinted
    · obtain ⟨byte, -, hbyte⟩ := List.mem_flatMap.mp hown
      exact isPrinted_octal hbyte

/-- Git prints a path in one line of ASCII. -/
theorem isPrinted_quotePath {path : List Char} {c : Char} (hc : c ∈ quotePath path) :
    isPrinted c = true := by
  rw [quotePath] at hc
  split at hc
  next hplain => exact (isPrinted_of_isPlain hplain hc).1
  · rw [List.cons_append, List.mem_cons, List.mem_append, List.mem_singleton] at hc
    rcases hc with rfl | hinside | rfl
    · decide
    · obtain ⟨own, -, hown⟩ := List.mem_flatMap.mp hinside
      exact isPrinted_quoteChar hown
    · decide

theorem not_mem_quotePath {path : List Char} : '\n' ∉ quotePath path := by
  intro hfeed
  exact absurd (isPrinted_quotePath hfeed) (by decide)

theorem isSpace_of_isPrinted {c : Char} (hprinted : isPrinted c = true) (hc : c ≠ ' ') :
    isSpace c = false := by
  simp only [isPrinted, Bool.and_eq_true, decide_eq_true_eq] at hprinted
  have hcode : c.toNat ≠ 32 := by
    intro hsame
    apply hc
    rw [← Char.ofNat_toNat c, hsame]
  simp only [isSpace, Bool.or_eq_false_iff, Bool.and_eq_false_iff, decide_eq_false_iff_not]
  omega

/-- The end of a printed path is no white space. -/
theorem quotePath_append {path : List Char} (hpath : path ≠ []) :
    ∃ front c, quotePath path = front ++ [c] ∧ isSpace c = false := by
  rw [quotePath]
  split
  next hplain =>
    obtain ⟨front, c, hlast⟩ := List.eq_nil_or_concat path |>.resolve_left hpath
    rw [List.concat_eq_append] at hlast
    have hmem : c ∈ path := hlast ▸ List.mem_append_right front (List.mem_singleton_self c)
    obtain ⟨hprinted, hspace⟩ := isPrinted_of_isPlain hplain hmem
    exact ⟨front, c, hlast, isSpace_of_isPrinted hprinted hspace⟩
  · exact ⟨'"' :: path.flatMap quoteChar, '"', rfl, by decide⟩

variable {change : Change} {changes : List Change}

theorem Change.shown_append (change : Change) :
    ∃ front c, change.shown = front ++ [c] ∧ isSpace c = false := by
  obtain ⟨front, c, hpath, hc⟩ := quotePath_append change.path_ne_nil
  rw [Change.shown]
  cases change.original with
  | none => exact ⟨front, c, hpath, hc⟩
  | some original =>
    refine ⟨quotePath original ++ " -> ".toList ++ front, c, ?_, hc⟩
    rw [hpath, List.append_assoc (quotePath original ++ _)]

theorem Change.not_mem_line (change : Change) : '\n' ∉ change.line := by
  have hshown : '\n' ∉ change.shown := by
    rw [Change.shown]
    cases change.original with
    | none => exact not_mem_quotePath
    | some original =>
      have harrow : '\n' ∉ " -> ".toList := by decide
      simp only [List.mem_append, not_or]
      exact ⟨⟨not_mem_quotePath, harrow⟩, not_mem_quotePath⟩
  simp only [Change.line, List.mem_cons, not_or]
  exact ⟨change.letters.1.symm, change.letters.2.symm, by decide, hshown⟩

/-- Each line is cut behind the letters. -/
theorem parseStatusLine_line (change : Change) : parseStatusLine change.line =
    some ([change.staged, change.unstaged], change.shown) := by
  obtain ⟨front, c, hshown, hc⟩ := change.shown_append
  have hstrip : rstrip change.line = change.line := by
    have hline : change.line = (change.staged :: change.unstaged :: ' ' :: front) ++ [c] := by
      rw [Change.line, hshown]
      rfl
    rw [hline]
    exact rstrip_append hc
  rw [parseStatusLine]
  simp only [hstrip]
  rw [if_pos]
  · rfl
  · rw [Change.line, hshown]
    exact ⟨by simp, by simp⟩

theorem parseStatus_eq : parseStatus (statusOutput changes) =
    changes.map fun change => ([change.staged, change.unstaged], change.shown) := by
  have hplain : ∀ line ∈ changes.map Change.line ++ [[]], '\n' ∉ line := by
    intro line hline
    rcases List.mem_append.mp hline with hline | hlast
    · obtain ⟨change, -, hchange⟩ := List.mem_map.mp hline
      exact hchange ▸ change.not_mem_line
    · rw [List.mem_singleton.mp hlast]
      exact List.not_mem_nil
  have hlast : [([] : List Char)].filterMap parseStatusLine = [] := by decide
  rw [parseStatus, statusOutput, split_joinLines (by simp) hplain, List.filterMap_append, hlast,
    List.append_nil]
  induction changes with
  | nil => rfl
  | cons change rest ih =>
    rw [List.map_cons, List.map_cons, List.filterMap_cons_some (parseStatusLine_line change), ih]
    intro line hline
    apply hplain
    rw [List.map_cons, List.cons_append]
    exact List.mem_cons_of_mem _ hline

/-- The path of a change is shown as it is. -/
theorem Change.shown_eq_iff : change.shown = change.path ↔
    change.original = none ∧ isPlain change.path = true := by
  rw [Change.shown]
  cases horiginal : change.original with
  | none => rw [quotePath_eq_iff, eq_self_iff_true, true_and]
  | some original =>
    apply iff_of_false
    · intro hsame
      have hlength := congrArg List.length hsame
      have hlonger : change.path.length ≤ (quotePath change.path).length := by
        rw [quotePath]
        split
        · exact Nat.le_refl _
        · have hinside := length_le_flatMap change.path
          simp only [List.cons_append, List.length_cons, List.length_append]
          omega
      have harrow : " -> ".toList.length = 4 := rfl
      rw [List.length_append, List.length_append, harrow] at hlength
      omega
    · intro hboth
      cases hboth.1

end DbtCraft.Services.GitOutput

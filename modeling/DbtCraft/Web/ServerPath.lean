/-
# How a server reads the path of a URL

A server decodes the path, once or several times, and takes the dot segments out of its segments.
What a path adds to a directory is known from the path alone: how far it climbs, and by which
names it goes down again.
-/

import DbtCraft.Python.Splitting
import Mathlib.Data.List.DropRight

namespace DbtCraft.Web

open DbtCraft.Python

/-! ## Decoding -/

/-- The value of a hexadecimal digit. -/
def hexValue (c : Char) : Option ℕ :=
  if c.isDigit then some (c.toNat - '0'.toNat)
  else if 'a' ≤ c ∧ c ≤ 'f' then some (c.toNat - 'a'.toNat + 10)
  else if 'A' ≤ c ∧ c ≤ 'F' then some (c.toNat - 'A'.toNat + 10)
  else none

/-- A text without its percent-encoding; a byte is the character of its number. -/
def decode : List Char → List Char
  | [] => []
  | [c] => [c]
  | [c, d] => [c, d]
  | c :: high :: low :: rest =>
    if c = '%' then
      match hexValue high, hexValue low with
      | some high, some low => Char.ofNat (16 * high + low) :: decode rest
      | _, _ => c :: decode (high :: low :: rest)
    else c :: decode (high :: low :: rest)

def decodeTimes : ℕ → List Char → List Char
  | 0, text => text
  | rounds + 1, text => decodeTimes rounds (decode text)

/-- A server, or a proxy before it. -/
structure Server where
  /-- How often it decodes. -/
  rounds : ℕ
  /-- Empty segments are dropped. -/
  merges : Bool
  /-- A backslash is a slash. -/
  backslash : Bool

namespace Server

variable (server : Server)

def slash (c : Char) : Char := if server.backslash = true ∧ c = '\\' then '/' else c

/-- A path as it is split. -/
def read (path : List Char) : List Char := (decodeTimes server.rounds path).map server.slash

/-- The segments of a path. -/
def segments (path : List Char) : List (List Char) :=
  match server.read path with
  | '/' :: rest => split '/' rest
  | text => split '/' text

/-! ## Dot segments -/

/-- Where a segment leads. -/
def step (place : List (List Char)) (segment : List Char) : List (List Char) :=
  if segment = ['.'] ∨ server.merges = true ∧ segment = [] then place
  else if segment = ['.', '.'] then place.dropLast
  else place ++ [segment]

/-- A path without its dot segments. -/
def place (path : List Char) : List (List Char) := (server.segments path).foldl server.step []

/-- The path of a directory without its dot segments, and without the slash at its end. -/
def directory (path : List Char) : List (List Char) :=
  (if (server.segments path).getLast? = some [] then (server.segments path).dropLast
    else server.segments path).foldl server.step []

/-- How far a relative path climbs, and by which names it goes down again. -/
structure Climb where
  ups : ℕ
  names : List (List Char)

def climbStep (climb : Climb) (segment : List Char) : Climb :=
  if segment = ['.'] ∨ server.merges = true ∧ segment = [] then climb
  else if segment = ['.', '.'] then
    if climb.names = [] then ⟨climb.ups + 1, []⟩ else ⟨climb.ups, climb.names.dropLast⟩
  else ⟨climb.ups, climb.names ++ [segment]⟩

def climb (segments : List (List Char)) : Climb := segments.foldl server.climbStep ⟨0, []⟩

variable {server} {start : List (List Char)} {segments : List (List Char)}

/-- Where a climb leads. -/
def Climb.from (climb : Climb) (start : List (List Char)) : List (List Char) :=
  start.take (start.length - climb.ups) ++ climb.names

theorem step_from (climb : Climb) (segment : List Char) :
    server.step (climb.from start) segment = (server.climbStep climb segment).from start := by
  unfold step climbStep
  split
  · rfl
  · split
    · split
      next hnames =>
        simp only [Climb.from, hnames, List.append_nil, List.dropLast_eq_take, List.length_take,
          List.take_take]
        congr 1
        omega
      next hnames => rw [Climb.from, Climb.from, List.dropLast_append_of_ne_nil hnames]
    · rw [Climb.from, Climb.from, List.append_assoc]

/-- A relative path leads where its climb does. -/
theorem foldl_step : segments.foldl server.step start = (server.climb segments).from start := by
  have hall : ∀ climb : Climb, segments.foldl server.step (climb.from start) =
      (segments.foldl server.climbStep climb).from start := by
    induction segments with
    | nil => exact fun climb => rfl
    | cons segment rest ih =>
      intro climb
      rw [List.foldl_cons, List.foldl_cons, step_from, ih]
  have hstart : (⟨0, []⟩ : Climb).from start = start := by
    rw [Climb.from, Nat.sub_zero, List.take_length, List.append_nil]
  rw [climb, ← hall, hstart]

/-- **A relative path stays below a directory** just if it goes down again by the names by which
it has climbed. -/
theorem prefix_foldl_step : start <+: segments.foldl server.step start ↔
    start.drop (start.length - (server.climb segments).ups) <+: (server.climb segments).names := by
  rw [foldl_step, Climb.from]
  have hstart := List.take_append_drop (start.length - (server.climb segments).ups) start
  generalize start.length - (server.climb segments).ups = count at hstart ⊢
  generalize htake : start.take count = first at hstart ⊢
  generalize start.drop count = last at hstart ⊢
  rw [← hstart]
  exact List.prefix_append_right_inj first

/-! ## Joining -/

theorem decode_cons {c : Char} {text : List Char} (hc : c ≠ '%') :
    decode (c :: text) = c :: decode text := by
  match text with
  | [] => rfl
  | [_] => rfl
  | _ :: _ :: _ => rw [decode, if_neg hc]

/-- No encoding ends with a slash. -/
theorem decode_cons_slash (c : Char) (rest : List Char) :
    decode (c :: '/' :: rest) = c :: '/' :: decode rest := by
  have hslash : decode ('/' :: rest) = '/' :: decode rest := decode_cons (by decide)
  have hvalue : hexValue '/' = none := by decide
  by_cases hc : c = '%'
  · cases rest with
    | nil => rfl
    | cons low more => rw [hc, decode, if_pos rfl, hvalue, hslash]
  · rw [decode_cons hc, hslash]

theorem decode_cons_cons_slash (c d : Char) (rest : List Char) :
    decode (c :: d :: '/' :: rest) = c :: d :: '/' :: decode rest := by
  have hvalue : hexValue '/' = none := by decide
  by_cases hc : c = '%'
  · rw [hc, decode, if_pos rfl, hvalue]
    cases hexValue d with
    | none => exact congrArg _ (decode_cons_slash d rest)
    | some high => exact congrArg _ (decode_cons_slash d rest)
  · rw [decode_cons hc, decode_cons_slash]

/-- No encoding goes across a slash. -/
theorem decode_append_slash (text rest : List Char) :
    decode (text ++ '/' :: rest) = decode text ++ '/' :: decode rest := by
  induction text using decode.induct with
  | case1 => exact decode_cons (by decide)
  | case2 c => exact decode_cons_slash c rest
  | case3 c d => exact decode_cons_cons_slash c d rest
  | case4 high low more high' low' hhigh hlow ih =>
    simp only [List.cons_append, decode, if_true, hhigh, hlow, ih]
  | case5 high low more hnone ih =>
    have hkept : ∀ later, decode ('%' :: high :: low :: later) = '%' :: decode (high :: low :: later) := by
      intro later
      rw [decode, if_pos rfl]
      cases hhigh : hexValue high with
      | none => rfl
      | some high' =>
        cases hlow : hexValue low with
        | none => rfl
        | some low' => exact (hnone high' low' hhigh hlow).elim
    rw [List.cons_append, List.cons_append, List.cons_append, hkept, hkept, ← List.cons_append,
      ← List.cons_append, ih, List.cons_append]
  | case6 c high low more hc ih =>
    rw [decode_cons hc, List.cons_append, decode_cons hc, ih, List.cons_append]

theorem decodeTimes_nil (rounds : ℕ) : decodeTimes rounds [] = [] := by
  induction rounds with
  | zero => rfl
  | succ rounds ih => exact ih

theorem decodeTimes_append_slash (rounds : ℕ) (text rest : List Char) :
    decodeTimes rounds (text ++ '/' :: rest) =
      decodeTimes rounds text ++ '/' :: decodeTimes rounds rest := by
  induction rounds generalizing text rest with
  | zero => rfl
  | succ rounds ih => rw [decodeTimes, decode_append_slash, ih, decodeTimes, decodeTimes]

theorem read_append_slash (text rest : List Char) :
    server.read (text ++ '/' :: rest) = server.read text ++ '/' :: server.read rest := by
  have hslash : server.slash '/' = '/' := by simp [slash]
  rw [read, decodeTimes_append_slash, List.map_append, List.map_cons, hslash, read, read]

/-- The segments of a path in a directory are those of the directory and its own. -/
theorem segments_append_slash (server : Server) (text : List Char) :
    ∃ before, ∀ rest, server.segments (text ++ '/' :: rest) =
      before ++ split '/' (server.read rest) := by
  cases htext : server.read text with
  | nil => exact ⟨[], fun rest => by rw [segments, read_append_slash, htext]; rfl⟩
  | cons c more =>
    by_cases hc : c = '/'
    · refine ⟨split '/' more, fun rest => ?_⟩
      rw [segments, read_append_slash, htext, hc]
      exact split_append_cons more (server.read rest)
    · refine ⟨split '/' (c :: more), fun rest => ?_⟩
      rw [segments, read_append_slash, htext, List.cons_append]
      split
      next heq => exact absurd (List.cons.inj heq).1 hc
      · rw [← List.cons_append]
        exact split_append_cons (c :: more) (server.read rest)

/-- A path stays in the directory in which it is just if it does so by itself. -/
theorem directory_prefix_place (text rest : List Char) :
    server.directory (text ++ ['/']) <+: server.place (text ++ '/' :: rest) ↔
      (server.directory (text ++ ['/'])).drop ((server.directory (text ++ ['/'])).length -
        (server.climb (split '/' (server.read rest))).ups) <+:
          (server.climb (split '/' (server.read rest))).names := by
  obtain ⟨before, hbefore⟩ := segments_append_slash server text
  have hempty : split '/' (server.read []) = [[]] := by
    rw [read, decodeTimes_nil]
    rfl
  have hdirectory : server.directory (text ++ ['/']) = before.foldl server.step [] := by
    rw [directory, hbefore [], hempty]
    simp
  rw [hdirectory, place, hbefore rest, List.foldl_append]
  exact prefix_foldl_step

/-- A directory is above itself. -/
theorem directory_prefix_self (path : List Char) : server.directory path <+: server.place path := by
  rw [directory, place]
  split
  next hlast =>
    have hsegments : server.segments path = (server.segments path).dropLast ++ [[]] :=
      (List.dropLast_append_getLast? [] hlast).symm
    conv_rhs => rw [hsegments]
    rw [List.foldl_append, List.foldl_cons, List.foldl_nil, step]
    split
    · exact List.prefix_rfl
    · rw [if_neg (by decide)]
      exact List.prefix_append _ _
  · exact List.prefix_rfl

end Server

end DbtCraft.Web

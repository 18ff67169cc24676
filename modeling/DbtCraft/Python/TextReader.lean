/-
# Reading a text

A text file as it is read: its bytes come in chunks, which are decoded as they come, and its lines
are handed out as soon as they are complete. What cannot be decoded is an exception, or replaced.
-/

import DbtCraft.Python.Unquote

namespace DbtCraft.Python.TextReader

open DbtCraft.Python.Url (followers unfinished)

universe uε

/-! ## Decoding -/

/-- How the bytes of a text end. -/
inductive Utf8End
  | whole
  | /-- In a character that may go on. -/
    cut
  | /-- In what is no character. -/
    broken
  deriving DecidableEq

/-- The characters of bytes, at most so many, up to where they end. -/
def decodeUtf8 (replace : Bool) : ℕ → List UInt8 → List Char × Utf8End
  | 0, _ => ([], .whole)
  | _, [] => ([], .whole)
  | fuel + 1, lead :: rest =>
    match (lead :: rest).toByteArray.utf8DecodeChar? 0 with
    | some c =>
      let later := decodeUtf8 replace fuel ((lead :: rest).drop c.utf8Size)
      (c :: later.1, later.2)
    | none =>
      let bounds := followers lead.toNat
      let count := unfinished bounds rest
      if count = rest.length ∧ count < bounds.length then ([], .cut)
      else if replace then
        let later := decodeUtf8 replace fuel (rest.drop count)
        ('\uFFFD' :: later.1, later.2)
      else ([], .broken)

/-- All characters of bytes. -/
def decoded (replace : Bool) (bytes : List UInt8) : List Char × Utf8End :=
  decodeUtf8 replace bytes.length bytes

/-- The bytes in front of the chunk in which decoding fails, and whether there is one. -/
def decodable (replace : Bool) (seen : List UInt8) : List (List UInt8) → List UInt8 × Bool
  | [] => (seen, false)
  | chunk :: rest =>
    if (decoded replace (seen ++ chunk)).2 = .broken then (seen, true)
    else decodable replace (seen ++ chunk) rest

/-! ## Lines -/

/-- The complete lines of a text, and what stands behind them; a line ends with a line feed, a
carriage return or both. -/
def cutLines (line : List Char) : List Char → List (List Char) × List Char
  | [] => ([], line)
  | c :: rest =>
    if c = '\n' ∨ c = '\r' ∧ rest.head? ≠ some '\n' then
      let later := cutLines [] rest
      (line :: later.1, later.2)
    else if c = '\r' then cutLines line rest
    else cutLines (line ++ [c]) rest

/-- The lines that are complete while more may come: a carriage return waits for a line feed. -/
def linesSoFar (text : List Char) : List (List Char) :=
  (cutLines [] (if text.getLast? = some '\r' then text.dropLast else text)).1

/-- The lines of a whole text. -/
def allLines (text : List Char) : List (List Char) :=
  let found := cutLines [] text
  if found.2 = [] then found.1 else found.1 ++ [found.2]

/-! ## Reading -/

/-- What walking through the lines of a file comes to. -/
structure Handle (ε : Type uε) where
  lines : List (List Char)
  /-- What is raised behind the lines. -/
  failure : Option ε

/-- A file whose reads return the chunks and then end, or raise. -/
def readText {ε : Type uε} (replace : Bool) (undecodable : ε) (chunks : List (List UInt8))
    (failure : Option ε) : Handle ε :=
  let (bytes, broken) := decodable replace [] chunks
  let (text, ending) := decoded replace bytes
  if broken then ⟨linesSoFar text, some undecodable⟩
  else
    match failure with
    | some raised => ⟨linesSoFar text, some raised⟩
    | none =>
      match ending, replace with
      | .whole, _ => ⟨allLines text, none⟩
      | .cut, true => ⟨allLines (text ++ ['\uFFFD']), none⟩
      | .cut, false | .broken, _ => ⟨linesSoFar text, some undecodable⟩

variable {ε : Type uε} {undecodable raised : ε} {seen : List UInt8} {chunks : List (List UInt8)}

example : readText false "UnicodeDecodeError" [[123, 125, 10, 0xC3], [0xA4, 10, 0xE2, 0x82]] none =
    ⟨[['{', '}'], ['ä']], some "UnicodeDecodeError"⟩ := by rfl

end DbtCraft.Python.TextReader

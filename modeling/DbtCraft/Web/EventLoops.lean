/-
# The event loops of the browser

The read loops of `useDbtRunStream` and `useAgentStream`, over the events that the runner and
the agent service write as server-sent events. A chunk is decoded and put behind what is left
of the chunks before it, and what stands behind the last separator is left for the next one.
What a loop delivers depends on the bytes alone, however they are cut into chunks.
-/

import DbtCraft.Python.JsonLine
import DbtCraft.Python.Replace

namespace DbtCraft.Web.EventLoops

open DbtCraft.Python DbtCraft.Python.JsonText

abbrev Text := List Char

/-! ## Events -/

mutual

/-- The constants of a document are those of JSON. -/
def isJson : Document → Bool
  | .word word => [Word.null, .true, .false].contains word
  | .number _ | .string _ => true
  | .list items => areJson items
  | .dict members => membersAreJson members

def areJson : List Document → Bool
  | [] => true
  | item :: rest => isJson item && areJson rest

def membersAreJson : List (String × Document) → Bool
  | [] => true
  | (_, value) :: rest => isJson value && membersAreJson rest

end

/-- What is published. -/
structure Event where
  document : Document
  isJson : isJson document = true

/-- The text that begins a line of data. -/
def dataStart : Text := ['d', 'a', 't', 'a', ':', ' ']

/-- The line of an event. -/
def Event.line (event : Event) : Text := dataStart ++ lineText event.document

/-- `_sse` of the agent service, and what `stream_dbt` of the runner yields. -/
def Event.frame (event : Event) : Text := event.line ++ ['\n', '\n']

/-- The bytes of a stream. -/
def published (events : List Event) : List UInt8 :=
  (events.flatMap Event.frame).flatMap String.utf8EncodeChar

/-- `JSON.parse`, which reads fewer constants than Python does. -/
def jsonParse (text : Text) : Option Document := (loads text).filter isJson

/-! ## Decoding -/

/-- What is to come of a character: how many bytes, between which bounds the next one is, and
the bits before it. -/
structure Pending where
  needed : ℕ := 0
  codePoint : ℕ := 0
  lower : ℕ := 0x80
  upper : ℕ := 0xBF

/-- The first byte of a character. -/
def lead (byte : ℕ) : Pending × Text :=
  if byte ≤ 0x7F then ({}, [Char.ofNat byte])
  else if 0xC2 ≤ byte ∧ byte ≤ 0xDF then ({ needed := 1, codePoint := byte % 0x20 }, [])
  else if 0xE0 ≤ byte ∧ byte ≤ 0xEF then
    ({ needed := 2
       codePoint := byte % 0x10
       lower := if byte = 0xE0 then 0xA0 else 0x80
       upper := if byte = 0xED then 0x9F else 0xBF }, [])
  else if 0xF0 ≤ byte ∧ byte ≤ 0xF4 then
    ({ needed := 3
       codePoint := byte % 0x08
       lower := if byte = 0xF0 then 0x90 else 0x80
       upper := if byte = 0xF4 then 0x8F else 0xBF }, [])
  else ({}, ['\uFFFD'])

/-- One byte. One that does not go on with a character begins another. -/
def Pending.next (pending : Pending) (byte : ℕ) : Pending × Text :=
  if pending.needed = 0 then lead byte
  else if byte < pending.lower ∨ pending.upper < byte then
    ((lead byte).1, '\uFFFD' :: (lead byte).2)
  else
    let codePoint := pending.codePoint * 0x40 + byte % 0x40
    if pending.needed = 1 then ({}, [Char.ofNat codePoint])
    else ({ needed := pending.needed - 1, codePoint }, [])

/-- A `TextDecoder`. -/
structure TextDecoder where
  pending : Pending := {}
  /-- The place of a byte order mark, which is left out, has been passed. -/
  begun : Bool := false

def TextDecoder.byte (decoder : TextDecoder) (byte : UInt8) : TextDecoder × Text :=
  match decoder.pending.next byte.toNat with
  | (pending, []) => ({ decoder with pending }, [])
  | (pending, c :: rest) =>
    ({ pending, begun := true },
      if decoder.begun = false ∧ c = '\uFEFF' then rest else c :: rest)

/-- `decoder.decode(chunk, \x7b stream: true \x7d)`. -/
def TextDecoder.decode (decoder : TextDecoder) : List UInt8 → TextDecoder × Text
  | [] => (decoder, [])
  | byte :: rest =>
    let first := decoder.byte byte
    let later := first.1.decode rest
    (later.1, first.2 ++ later.2)

/-! ## Reading -/

/-- How a loop takes its text apart. -/
structure Loop where
  separator : Text
  /-- What it delivers of a piece. -/
  messages : Text → List Document

/-- A line of data, parsed; a line that cannot be parsed is skipped. -/
def parsed (line : Text) : List Document := (jsonParse (line.drop 6)).toList

/-- The loop of `useDbtRunStream`. -/
def useDbtRunStream : Loop where
  separator := ['\n']
  messages line := if dataStart.isPrefixOf line then parsed line else []

/-- The loop of `useAgentStream`. -/
def useAgentStream : Loop where
  separator := ['\n', '\n']
  messages frame :=
    match (pieces ['\n'] frame).find? fun line => dataStart.isPrefixOf line with
    | some line => parsed line
    | none => []

/-- What a loop keeps between two chunks, and the events it has delivered. -/
structure Reader where
  decoder : TextDecoder := {}
  buffer : Text := []
  delivered : List Document := []

variable (loop : Loop)

/-- One chunk. -/
def Loop.read (reader : Reader) (chunk : List UInt8) : Reader :=
  let decoded := reader.decoder.decode chunk
  let parts := pieces loop.separator (reader.buffer ++ decoded.2)
  { decoder := decoded.1
    buffer := parts.getLast?.getD []
    delivered := reader.delivered ++ parts.dropLast.flatMap loop.messages }

/-- What a loop delivers of a stream. -/
def Loop.run (chunks : List (List UInt8)) : List Document :=
  (chunks.foldl loop.read {}).delivered

/-! ## Chunks -/

variable {loop} {bytes more chunk : List UInt8} {text : Text} {event : Event}
  {events : List Event}

theorem decode_append (decoder : TextDecoder) : decoder.decode (bytes ++ more) =
    (((decoder.decode bytes).1.decode more).1,
      (decoder.decode bytes).2 ++ ((decoder.decode bytes).1.decode more).2) := by
  induction bytes generalizing decoder with
  | nil => rfl
  | cons byte rest ih =>
    rw [List.cons_append, TextDecoder.decode, TextDecoder.decode, ih, List.append_assoc]

variable (loop) in
/-- The reader when so many bytes have come in one chunk. -/
def Loop.after (bytes : List UInt8) : Reader := loop.read {} bytes

/-- A further chunk might have come with the bytes before it. -/
theorem read_after : loop.read (loop.after bytes) chunk = loop.after (bytes ++ chunk) := by
  unfold Loop.after Loop.read
  dsimp only
  rw [decode_append]
  dsimp only
  generalize (TextDecoder.decode {} bytes).2 = own
  generalize ((TextDecoder.decode {} bytes).1.decode chunk).2 = new
  simp only [List.nil_append]
  rw [pieces_append own new,
    List.getLast?_append_of_ne_nil _ pieces_ne_nil, List.dropLast_append_of_ne_nil pieces_ne_nil,
    List.flatMap_append]

theorem foldl_read (chunks : List (List UInt8)) :
    chunks.foldl loop.read (loop.after bytes) = loop.after (bytes ++ chunks.flatten) := by
  induction chunks generalizing bytes with
  | nil => rw [List.foldl_nil, List.flatten_nil, List.append_nil]
  | cons chunk rest ih =>
    rw [List.foldl_cons, read_after, ih, List.flatten_cons, List.append_assoc]

/-- **Chunks do not matter.** A loop delivers what it would deliver of one chunk. -/
theorem run_eq (chunks : List (List UInt8)) : loop.run chunks = loop.run [chunks.flatten] :=
  congrArg Reader.delivered (@foldl_read loop [] chunks)

/-! ## Frames -/

theorem decode_ascii (htext : ∀ c ∈ text, c.toNat < 128) (begun : Bool) :
    (TextDecoder.decode ⟨{}, begun⟩ (text.flatMap String.utf8EncodeChar)).2 = text := by
  induction text generalizing begun with
  | nil => rfl
  | cons c rest ih =>
    obtain ⟨hc, hrest⟩ := List.forall_mem_cons.mp htext
    have hbyte : String.utf8EncodeChar c = [c.val.toUInt8] :=
      String.utf8EncodeChar_eq_singleton (Char.utf8Size_eq_one_iff.mpr (Nat.le_of_lt_succ hc))
    have hcode : c.val.toUInt8.toNat = c.toNat := by
      rw [UInt32.toNat_toUInt8]
      exact Nat.mod_eq_of_lt (hc.trans (by decide))
    have hlead : Pending.next {} c.val.toUInt8.toNat = ({}, [c]) := by
      rw [Pending.next, if_pos rfl, lead, hcode, if_pos (Nat.le_of_lt_succ hc), Char.ofNat_toNat]
    have hmark : ¬ (begun = false ∧ c = '\uFEFF') := fun ⟨_, hsame⟩ =>
      absurd (hsame ▸ hc) (by decide)
    have hnext : TextDecoder.byte ⟨{}, begun⟩ c.val.toUInt8 = (⟨{}, true⟩, [c]) := by
      simp only [TextDecoder.byte, hlead, if_neg hmark]
    rw [List.flatMap_cons, hbyte, List.singleton_append, TextDecoder.decode, hnext]
    dsimp only
    rw [ih hrest, List.singleton_append]

/-- The lines and ends of frames are plain ASCII. -/
theorem ascii_frames (events : List Event) : ∀ c ∈ events.flatMap Event.frame, c.toNat < 128 := by
  intro c hc
  obtain ⟨event, -, hframe⟩ := List.mem_flatMap.mp hc
  rcases List.mem_append.mp hframe with hline | hend
  · rcases List.mem_append.mp hline with hstart | htext
    · exact (by decide : ∀ c ∈ dataStart, c.toNat < 128) c hstart
    · exact Nat.lt_of_le_of_lt (printable_lineText event.document c htext).2 (by decide)
  · exact (by decide : ∀ c ∈ ['\n', '\n'], c.toNat < 128) c hend

theorem ne_of_mem_line {c : Char} (hc : c ∈ event.line) : c ≠ '\n' := by
  rintro rfl
  rcases List.mem_append.mp hc with hstart | htext
  · exact absurd hstart (by decide)
  · exact absurd (printable_lineText event.document _ htext).1 (by decide)

theorem parsed_line (event : Event) : parsed event.line = [event.document] := by
  have hdrop : event.line.drop 6 = lineText event.document := rfl
  rw [parsed, hdrop, jsonParse, loads_lineText, Option.filter_some, if_pos event.isJson]
  rfl

theorem startsWith_line (event : Event) : dataStart.isPrefixOf event.line = true :=
  List.isPrefixOf_iff_prefix.mpr (List.prefix_append _ _)

theorem lines_frames (events : List Event) :
    (pieces ['\n'] (events.flatMap Event.frame)).dropLast.flatMap useDbtRunStream.messages =
      events.map Event.document := by
  induction events with
  | nil => rfl
  | cons event rest ih =>
    have hpieces : pieces ['\n'] ((event :: rest).flatMap Event.frame) =
        event.line :: [] :: pieces ['\n'] (rest.flatMap Event.frame) := by
      rw [List.flatMap_cons, Event.frame, List.append_assoc]
      exact (pieces_append_cons fun _ hc => ne_of_mem_line hc).trans
        (congrArg _ (pieces_append_cons (List.forall_mem_nil _)))
    rw [hpieces, List.dropLast_cons_of_ne_nil (List.cons_ne_nil _ _),
      List.dropLast_cons_of_ne_nil pieces_ne_nil, List.flatMap_cons, List.flatMap_cons, ih,
      List.map_cons]
    have hmessage : useDbtRunStream.messages event.line = [event.document] := by
      show (if dataStart.isPrefixOf event.line then parsed event.line else []) = _
      rw [if_pos (startsWith_line event), parsed_line]
    rw [hmessage]
    rfl

theorem frames_frames (events : List Event) :
    (pieces ['\n', '\n'] (events.flatMap Event.frame)).dropLast.flatMap useAgentStream.messages =
      events.map Event.document := by
  induction events with
  | nil => rfl
  | cons event rest ih =>
    have hpieces : pieces ['\n', '\n'] ((event :: rest).flatMap Event.frame) =
        event.line :: pieces ['\n', '\n'] (rest.flatMap Event.frame) := by
      rw [List.flatMap_cons, Event.frame, List.append_assoc]
      exact pieces_append_cons fun _ hc => ne_of_mem_line hc
    have hframe : pieces ['\n'] event.line = [event.line] :=
      pieces_of_not_infix fun hwithin => ne_of_mem_line (hwithin.subset List.mem_cons_self) rfl
    rw [hpieces, List.dropLast_cons_of_ne_nil pieces_ne_nil, List.flatMap_cons, ih, List.map_cons]
    have hmessage : useAgentStream.messages event.line = [event.document] := by
      rw [useAgentStream]
      simp only [hframe, List.find?_cons, startsWith_line, parsed_line]
    rw [hmessage]
    rfl

theorem run_published {chunks : List (List UInt8)} (hchunks : chunks.flatten = published events) :
    loop.run chunks =
      (pieces loop.separator (events.flatMap Event.frame)).dropLast.flatMap loop.messages := by
  have htext : (TextDecoder.decode {} (published events)).2 = events.flatMap Event.frame :=
    decode_ascii (ascii_frames events) false
  rw [run_eq, hchunks, ← htext]
  rfl

/-- **The loops deliver the events.** However the bytes of a stream are cut into chunks, both
loops deliver its events, once each and in order. -/
theorem delivered_of_chunks (events : List Event) {chunks : List (List UInt8)}
    (hchunks : chunks.flatten = published events) :
    useDbtRunStream.run chunks = events.map Event.document ∧
      useAgentStream.run chunks = events.map Event.document := by
  rw [run_published hchunks, run_published hchunks]
  exact ⟨lines_frames events, frames_frames events⟩

/-- A line of output and the end of a run. -/
def shortRun : List Event :=
  [⟨.dict [("type", .string "output"), ("line", .string "caf\u00e9 \"1\"\n")], rfl⟩,
    ⟨.dict [("type", .string "completed"), ("returncode", .number (numeralOf 0))], rfl⟩]

/-- Every byte comes in a chunk of its own. -/
theorem delivered_of_single_bytes :
    useDbtRunStream.run ((published shortRun).map fun byte => [byte]) =
        shortRun.map Event.document ∧
      useAgentStream.run ((published shortRun).map fun byte => [byte]) =
        shortRun.map Event.document :=
  delivered_of_chunks shortRun (by rw [← List.flatMap_def, List.flatMap_singleton'])

end DbtCraft.Web.EventLoops

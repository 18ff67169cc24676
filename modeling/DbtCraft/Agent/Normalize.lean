/-
# Normalized events

`normalize` of `app/harness.py`: what it makes of one notification of the harness. A
notification is any JSON value that the harness writes, so that an attribute of what is no
object is an exception.
-/

import Mathlib.Data.List.Infix
import DbtCraft.Exceptions
import DbtCraft.Python.Value

namespace DbtCraft.Python.Value

/-- `value.get(key)`. -/
def get (value : Value) (key : String) : Except Raised Value :=
  match value with
  | .dict items => .ok ((item items (.str key)).getD .none)
  | _ => .error .attributeError

/-- `value == text`. -/
def isText (value : Value) (text : String) : Bool :=
  match value with
  | .str own => own = text
  | _ => false

/-- `isinstance(value, dict)`. -/
def isDict : Value → Bool
  | .dict _ => true
  | _ => false

/-- What a loop over a value walks. -/
def walked : Value → Except Raised (List Value)
  | .list items => .ok items
  | .dict items => .ok (items.map (·.1))
  | .str text => .ok (text.toList.map fun c => .str (String.singleton c))
  | _ => .error .typeError

end DbtCraft.Python.Value

namespace DbtCraft.Agent

open DbtCraft.Python

/-- The event that the panel consumes, without its session. -/
inductive AgentEvent
  | status (status : Value)
  | usage (inputTokens outputTokens cachedTokens reasoningTokens : Value)
  | delta (text : Value)
  | reasoning (text : Value)
  | text (text : String)
  | toolStart (tool id input : Value)
  | toolEnd (id : Value) (ok : Bool)
  | todo (items : Value)
  | turnEnd (reason error : Value)

/-- The event that says that the agent is idle. -/
def AgentEvent.isIdle : AgentEvent → Bool
  | .status value => value.isText "idle"
  | _ => false

/-- A normalized notification. -/
structure Normalized where
  event : AgentEvent
  /-- The session it is tagged with. -/
  session : Value

/-- `value or \x7b\x7d`. -/
def orEmpty (value : Value) : Value := value.orElse (.dict [])

variable (shown : Value → String)

/-- `str(value)`. -/
def strOf (value : Value) : String :=
  match value with
  | .str text => text
  | other => shown other

/-- The blocks of a kind. -/
def blocksOf (kind : String) (blocks : List Value) : Except Raised (List Value) :=
  match blocks with
  | [] => .ok []
  | block :: rest => do
    let chosen ← if block.isDict then (do return (← block.get "type").isText kind) else pure false
    let others ← blocksOf kind rest
    return if chosen then block :: others else others

/-- The text of the blocks of a message. -/
def blockText (content : Value) : Except Raised String := do
  let blocks ← blocksOf "text" (← (content.orElse (.list [])).walked)
  let texts ← blocks.mapM fun block => do
    return strOf shown ((← block.get "text").orElse (.str ""))
  return String.join texts

/-- The event of an `assistant/chunk`. -/
def chunkEvent (data : Value) : Except Raised (Option AgentEvent) := do
  let chunk := orEmpty (← data.get "chunk")
  let kind ← chunk.get "type"
  if kind.isText "usage" then
    let usage := orEmpty (← chunk.get "usage")
    return some (.usage (← usage.get "inputTokens") (← usage.get "outputTokens")
      (← usage.get "cacheReadTokens") (← usage.get "reasoningTokens"))
  else
    let text ← chunk.get "text"
    if !text.truthy then return none
    else if kind.isText "text-delta" then return some (.delta text)
    else if kind.isText "reasoning-delta" then return some (.reasoning text)
    else return none

/-- The event of an `assistant/message`. -/
def messageEvent (data : Value) : Except Raised (Option AgentEvent) := do
  let nested ← data.get "message"
  let message := if nested.isDict then nested else data
  let text ← blockText shown (← message.get "content")
  return if text ≠ "" then some (.text text) else none

/-- The event of a `tool/result`: the call id is on the source of the message. -/
def resultEvent (data : Value) : Except Raised (Option AgentEvent) := do
  let message := orEmpty (← data.get "message")
  let blocks ← ((← message.get "content").orElse (.list [])).walked
  let results ← blocksOf "tool-result" blocks
  let own ← (orEmpty (← message.get "source")).get "callId"
  let callId ←
    if own.truthy then pure own
    else
      match results with
      | [] => pure .none
      | result :: _ => result.get "toolCallId"
  let errors ← results.mapM fun result => result.get "isError"
  return some (.toolEnd callId (!errors.any Value.truthy))

/-- The event of a `turn/end`. -/
def turnEndEvent (data : Value) : Except Raised (Option AgentEvent) := do
  let reason := orEmpty (← data.get "reason")
  let error := orEmpty (← reason.get "error")
  return some (.turnEnd (← reason.get "kind") (← error.get "message"))

/-- The event of a kind with its data. -/
def eventOf (kind data : Value) : Except Raised (Option AgentEvent) :=
  if kind.isText "assistant/chunk" then chunkEvent data
  else if kind.isText "assistant/message" then messageEvent shown data
  else if kind.isText "tool/call" then do
    return some (.toolStart (← data.get "name") (← data.get "callId") (← data.get "arguments"))
  else if kind.isText "tool/result" then resultEvent data
  else if kind.isText "todo/write" then do
    return some (.todo ((← data.get "items").orElse (← data.get "todos")))
  else if kind.isText "turn/end" then turnEndEvent data
  else .ok none

/-- `normalize`. -/
def normalize (notification : Value) : Except Raised (Option Normalized) := do
  let method ← notification.get "method"
  let params := orEmpty (← notification.get "params")
  let session ← params.get "sessionId"
  if method.isText "session.status" then
    return some ⟨.status (← params.get "status"), session⟩
  else if method.isText "session.event" then
    let event := orEmpty (← params.get "event")
    let kind ← event.get "type"
    let data := orEmpty (← event.get "data")
    return (← eventOf shown kind data).map fun event => ⟨event, session⟩
  else
    return none

/-- A status notification. -/
def statusOf (session status : String) : Value :=
  .dict [(.str "method", .str "session.status"),
    (.str "params", .dict [(.str "sessionId", .str session), (.str "status", .str status)])]

/-- A status notification is normalized to its status. -/
theorem normalize_statusOf (session status : String) :
    normalize shown (statusOf session status) =
      .ok (some ⟨.status (.str status), .str session⟩) := by
  rfl

end DbtCraft.Agent

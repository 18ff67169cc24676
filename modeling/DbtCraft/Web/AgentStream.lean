/-
# The messages of the panel

`reduce`, `send` and `openSession` of `useAgentStream.ts`: the panel folds the events of a
conversation into a list of messages, live as they stream and again from the session log. A
chunk opens a provisional message; the committed message settles it where it is the last one.
-/

import Mathlib.Algebra.GroupWithZero.Nat
import DbtCraft.Agent.ReadLoop
import DbtCraft.Agent.SessionLog

namespace DbtCraft.Web.AgentStream

open DbtCraft.Python DbtCraft.Agent

/-- The role of an `AgentMessage`. -/
inductive Role
  | user
  | assistant
  | reasoning
  | tool
  | error
  deriving DecidableEq

/-- `AgentToolCall`. -/
structure ToolCall where
  name : String
  callId : Value
  input : String
  /-- `none` while it is still running. -/
  ok : Option Bool

/-- `AgentMessage`. -/
structure Message where
  role : Role
  text : String
  tool : Option ToolCall := none
  streaming : Bool := false

/-- What the browser makes of values. -/
structure Browser where
  /-- The text of a value that is no text. -/
  display : Value → String
  /-- `JSON.stringify`. -/
  stringify : Value → String

variable (browser : Browser)

/-- The text of `value ?? other`. -/
def Browser.text (value : Value) (other : String) : String :=
  match value with
  | .none => other
  | .str text => text
  | value => browser.display value

/-- A value counts as true in a script. -/
def truthy : Value → Bool
  | .none => false
  | .bool value => value
  | .int value => value ≠ 0
  | .float repr _ => repr ≠ "0.0" ∧ repr ≠ "-0.0"
  | .nonFinite repr => repr ≠ "nan"
  | .str text => text ≠ ""
  | _ => true

/-- `value === other` of values that come from different documents. -/
def strictEqual : Value → Value → Bool
  | .none, .none => true
  | .bool own, .bool other => own = other
  | .str own, .str other => own = other
  | .int own, other => other.equalsInt own && !(other matches .bool _)
  | own, .int other => own.equalsInt other && !(own matches .bool _)
  | .float own _, .float other _ => own = other
  | _, _ => false

/-- The last message is still streamed in a role. -/
def openIn (messages : List Message) (role : Role) : Bool :=
  messages.getLast?.any fun last => last.streaming && last.role = role

/-- A chunk of a role. -/
def chunk (messages : List Message) (role : Role) (text : String) : List Message :=
  match messages.getLast? with
  | some last =>
    if last.streaming && last.role = role then
      messages.dropLast ++ [{ last with text := last.text ++ text }]
    else messages ++ [{ role := role, text := text, streaming := true }]
  | none => messages ++ [{ role := role, text := text, streaming := true }]

/-- The message of a tool with the result of a call. -/
def withResult (id : Value) (ok : Bool) (message : Message) : Message :=
  { message with
    tool := message.tool.map fun tool =>
      if truthy tool.callId && strictEqual tool.callId id then { tool with ok := some ok } else tool }

/-- `reduce`. -/
def reduce (messages : List Message) : PanelEvent → List Message
  | .prompt text => messages ++ [{ role := .user, text := text }]
  | .agent (.delta text) => chunk messages .assistant (browser.text text "")
  | .agent (.reasoning text) => chunk messages .reasoning (browser.text text "")
  | .agent (.text text) =>
    if openIn messages .assistant then
      messages.dropLast ++ [{ role := .assistant, text := text }]
    else messages ++ [{ role := .assistant, text := text }]
  | .agent (.toolStart tool id input) =>
    let name := browser.text tool "tool"
    messages ++ [{
      role := .tool
      text := name
      tool := some ⟨name, id, match input with | .str text => text | _ => browser.stringify input,
        none⟩ }]
  | .agent (.toolEnd id ok) => messages.map (withResult id ok)
  | .agent (.turnEnd reason error) =>
    if truthy reason && !reason.isText "completed" then
      messages ++ [{
        role := .error
        text := browser.text error ("turn ended: " ++ browser.text reason "") }]
    else messages
  | .error text => messages ++ [{ role := .error, text := text }]
  -- `apply` keeps the todo list and the usage elsewhere.
  | .agent (.status _) | .agent (.usage _ _ _ _) | .agent (.todo _) => messages

/-- What `send` does at the end of a stream. -/
def settle (messages : List Message) : List Message :=
  messages.map fun message => { message with streaming := false }

/-- The messages after `send` with the events of its stream. -/
def send (messages : List Message) (text : String) (events : List PanelEvent) : List Message :=
  settle (events.foldl (reduce browser) (reduce browser messages (.prompt text)))

/-- The prompt that `send` posts: `context` is prepended and never shown. -/
def postedPrompt (text : String) (context : Option String) : String :=
  match context with
  | some context => if context = "" then text else context ++ "\n\n" ++ text
  | none => text

/-- The messages of `openSession`. -/
def openSession (events : List PanelEvent) : List Message := events.foldl (reduce browser) []

end DbtCraft.Web.AgentStream

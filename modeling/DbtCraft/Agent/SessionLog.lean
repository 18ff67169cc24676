/-
# The session log

`_read_events` and `read_history` of `app/sessions.py`: a conversation is read back out of the
log that the harness writes. What `normalize` makes of an event is the same as in the live
stream; chunks are left out, and of the messages of a user those that the harness injects.
-/

import DbtCraft.Agent.Normalize

namespace DbtCraft.Agent

open DbtCraft.Python

/-- An event that the panel folds. -/
inductive PanelEvent
  | prompt (text : String)
  | agent (event : AgentEvent)
  | error (text : String)

/-- `MAX_EVENTS`. -/
def maxEvents : ℕ := 20000

/-- A line of a session log. -/
inductive LogLine
  | blank
  | event (event : Value)
  | /-- `json.loads` raises a `JSONDecodeError`. -/
    torn

/-- The events of lines up to a torn one. -/
def untilTorn : List LogLine → List Value
  | [] => []
  | .blank :: rest => untilTorn rest
  | .event event :: rest => event :: untilTorn rest
  | .torn :: _ => []

/-- `_read_events`. -/
def readEvents (lines : List LogLine) : List Value := untilTorn (lines.take maxEvents)

/-- What marks a message as injected. -/
def isPlumbing (text : String) : Bool :=
  "system-reminder".toList <:+: text.toList ∨ "Current runtime context".toList <:+: text.toList

variable (shown : Value → String)

/-- The text of a `user/message` whose source is a user. -/
def userText (event : Value) : Except Raised (Option String) := do
  let data := orEmpty (← event.get "data")
  let source ← (orEmpty (← data.get "source")).get "kind"
  match source with
  | .none => return some (← blockText shown (← data.get "content"))
  | _ =>
    if source.isText "user" || source.isText "sdk" then
      return some (← blockText shown (← data.get "content"))
    else return none

/-- The prompt that a `user/message` is replayed as. -/
def recordedPrompt (event : Value) : Except Raised (Option PanelEvent) := do
  return ((← userText shown event).filter fun text => text ≠ "" && !isPlumbing text).map .prompt

/-- The events that are replayed. -/
def AgentEvent.isReplayed : AgentEvent → Bool
  | .text _ | .toolStart _ _ _ | .toolEnd _ _ | .todo _ => true
  | _ => false

/-- A notification of an event. -/
def notificationOf (params : List (Value × Value)) : Value :=
  .dict [(.str "method", .str "session.event"), (.str "params", .dict params)]

/-- What an event of the log is replayed as. -/
def replayed (event : Value) : Except Raised (Option PanelEvent) := do
  let kind ← event.get "type"
  if kind.isText "user/message" then recordedPrompt shown event
  else
    let mapped ← normalize shown (notificationOf [(.str "event", event)])
    return ((mapped.map (·.event)).filter AgentEvent.isReplayed).map .agent

/-- `read_history` of the events of a log. -/
def readHistory (events : List Value) : Except Raised (List PanelEvent) := do
  return (← events.mapM (replayed shown)).reduceOption

/-! ## Live and replayed events -/

/-- The event of an event of the log, without its session. -/
def bodyOf (event : Value) : Except Raised (Option AgentEvent) := do
  let event := orEmpty event
  let kind ← event.get "type"
  let data := orEmpty (← event.get "data")
  eventOf shown kind data

/-- A notification is normalized to the body of its event, with its session. -/
theorem normalize_notificationOf {params : List (Value × Value)} {session event : Value}
    (hnonempty : params ≠ [])
    (hsession : (Value.dict params).get "sessionId" = .ok session)
    (hevent : (Value.dict params).get "event" = .ok event) :
    normalize shown (notificationOf params) =
      (bodyOf shown event).map fun body => body.map fun body => ⟨body, session⟩ := by
  have hmethod : (notificationOf params).get "method" = .ok (.str "session.event") := rfl
  have hparams : (notificationOf params).get "params" = .ok (.dict params) := rfl
  have htruthy : orEmpty (.dict params) = .dict params := by
    cases params with
    | nil => exact absurd rfl hnonempty
    | cons first rest => rfl
  have hkind : Value.isText (.str "session.event") "session.status" = false := by decide +kernel
  have hkind' : Value.isText (.str "session.event") "session.event" = true := by decide +kernel
  rw [normalize, hmethod, hparams]
  simp only [bind, Except.bind, htruthy, hsession, hevent, hkind, hkind', if_true,
    Bool.false_eq_true, if_false, bodyOf]
  cases (orEmpty event).get "type" with
  | error raised => rfl
  | ok kind =>
    cases (orEmpty event).get "data" with
    | error raised => rfl
    | ok data =>
      cases heventOf : eventOf shown kind (orEmpty data) with
      | error raised => simp [heventOf, Except.map]
      | ok body => simp [heventOf, Except.map, pure, Except.pure]

theorem normalize_live (sessionId : String) (event : Value) :
    normalize shown (notificationOf [(.str "sessionId", .str sessionId), (.str "event", event)]) =
      (bodyOf shown event).map fun body => body.map fun body => ⟨body, .str sessionId⟩ :=
  normalize_notificationOf shown (List.cons_ne_nil _ _) rfl rfl

theorem normalize_logged (event : Value) :
    normalize shown (notificationOf [(.str "event", event)]) =
      (bodyOf shown event).map fun body => body.map fun body => ⟨body, .none⟩ :=
  normalize_notificationOf shown (List.cons_ne_nil _ _) rfl rfl

end DbtCraft.Agent

/-
# What a list of messages shows

The messages of the panel up to reasoning and errors, and what one event and what the events of
a turn do to them. Chunks open a message that a committed message settles where it is still the
last one; where each is settled, the list shows what the events of the session log alone are
folded to, and otherwise it shows a text more for each that is not.
-/

import DbtCraft.Web.AgentStream
import Mathlib.Tactic.Common

namespace DbtCraft.Web.AgentStream

open DbtCraft.Python DbtCraft.Agent

/-! ## What a list shows -/

/-- Reasoning and errors are left out. -/
def Message.isShown (message : Message) : Bool :=
  message.role ≠ .reasoning && message.role ≠ .error

/-- The messages of a list up to reasoning and errors, once nothing is streamed any more. -/
def view (messages : List Message) : List Message :=
  settle (messages.filter Message.isShown)

/-- The texts of the messages of a role. -/
def textsOf (role : Role) (messages : List Message) : List String :=
  (messages.filter fun message => message.role = role).map (·.text)

/-- The list without a message that chunks have opened and nothing has settled. -/
def durable (messages : List Message) : List Message :=
  if openIn messages .assistant then messages.dropLast else messages

/-! ## What an event does -/

/-- The event puts a message after the last one whatever that is. -/
def adds : PanelEvent → Bool
  | .prompt _ | .error _ => true
  | .agent (.reasoning _) | .agent (.toolStart _ _ _) => true
  | .agent (.turnEnd reason _) => truthy reason && !reason.isText "completed"
  | .agent _ => false

/-- Whether chunks have a message open after the event. -/
def opens (isOpen : Bool) : PanelEvent → Bool
  | .agent (.delta _) => true
  | .agent (.text _) => false
  | event => isOpen && !adds event

/-- The number of messages that chunks open and nothing settles. -/
def abandoned : Bool → List PanelEvent → ℕ
  | isOpen, [] => isOpen.toNat
  | isOpen, event :: rest => (isOpen && adds event).toNat + abandoned (opens isOpen event) rest

/-- The event stands in the log as well. -/
def keeps : PanelEvent → Bool
  | .prompt _ => true
  | .agent event => event.isReplayed
  | .error _ => false

/-- The text of a committed message. -/
def committed : PanelEvent → Option String
  | .agent (.text text) => some text
  | _ => none

/-- The text of a prompt. -/
def prompted : PanelEvent → Option String
  | .prompt text => some text
  | _ => none

variable {browser : Browser} {messages : List Message} {role : Role} {event : PanelEvent}
  {events : List PanelEvent} {isOpen : Bool}

/-! ## Lists of messages -/

@[simp]
theorem view_append (messages later : List Message) :
    view (messages ++ later) = view messages ++ view later := by
  rw [view, view, view, List.filter_append, settle, List.map_append]
  rfl

theorem settle_settle (messages : List Message) : settle (settle messages) = settle messages := by
  unfold settle
  rw [List.map_map]
  rfl

theorem filter_settle (messages : List Message) :
    (settle messages).filter Message.isShown = settle (messages.filter Message.isShown) := by
  unfold settle
  rw [List.filter_map]
  rfl

theorem view_settle (messages : List Message) : view (settle messages) = view messages := by
  rw [view, filter_settle, settle_settle, view]

theorem view_view (messages : List Message) : view (view messages) = view messages := by
  have hsame : view (view messages) = settle (settle
      ((messages.filter Message.isShown).filter Message.isShown)) :=
    congrArg settle (filter_settle _)
  rw [hsame, settle_settle, List.filter_filter]
  simp only [Bool.and_self]
  rfl

theorem openIn_concat (message : Message) :
    openIn (messages ++ [message]) role = (message.streaming && message.role = role) := by
  rw [openIn, List.getLast?_concat]
  rfl

theorem openIn_settle : openIn (settle messages) role = false := by
  rw [openIn, settle, List.getLast?_map]
  cases messages.getLast? with
  | none => rfl
  | some last => rfl

theorem openIn_view : openIn (view messages) role = false := openIn_settle

/-- The message that is open in a role is the last one. -/
theorem eq_concat_of_openIn (hopen : openIn messages role = true) :
    ∃ last, messages = messages.dropLast ++ [last] ∧ last.role = role := by
  unfold openIn at hopen
  cases hlast : messages.getLast? with
  | none =>
    rw [hlast] at hopen
    cases hopen
  | some last =>
    rw [hlast] at hopen
    obtain ⟨front, rfl⟩ := List.getLast?_eq_some_iff.mp hlast
    refine ⟨last, by rw [List.dropLast_concat], ?_⟩
    simp only [Option.any_some, Bool.and_eq_true, decide_eq_true_eq] at hopen
    exact hopen.2

/-- A chunk leaves one message open in its role. -/
theorem chunk_eq (messages : List Message) (role : Role) (text : String) :
    ∃ message : Message, message.role = role ∧ message.streaming = true ∧
      chunk messages role text =
        (if openIn messages role then messages.dropLast else messages) ++ [message] := by
  unfold chunk openIn
  cases messages.getLast? with
  | none => exact ⟨_, rfl, rfl, rfl⟩
  | some last =>
    simp only [Option.any_some]
    split
    next hopen =>
      rw [Bool.and_eq_true, decide_eq_true_eq] at hopen
      exact ⟨{ last with text := last.text ++ text }, hopen.2, hopen.1, rfl⟩
    · exact ⟨_, rfl, rfl, rfl⟩

theorem durable_of_closed (hclosed : openIn messages .assistant = false) :
    durable messages = messages := by
  rw [durable, hclosed]
  rfl

theorem durable_concat {message : Message} (hrole : message.role = .assistant)
    (hstreaming : message.streaming = true) : durable (messages ++ [message]) = messages := by
  rw [durable, openIn_concat, hrole, hstreaming, List.dropLast_concat]
  rfl

/-! ## Results of tools -/

theorem openIn_withResult (id : Value) (ok : Bool) :
    openIn (messages.map (withResult id ok)) role = openIn messages role := by
  rw [openIn, openIn, List.getLast?_map]
  cases messages.getLast? with
  | none => rfl
  | some last => rfl

theorem durable_withResult (id : Value) (ok : Bool) :
    durable (messages.map (withResult id ok)) = (durable messages).map (withResult id ok) := by
  rw [durable, durable, openIn_withResult]
  split
  · exact List.map_dropLast.symm
  · rfl

theorem view_withResult (id : Value) (ok : Bool) :
    view (messages.map (withResult id ok)) = (view messages).map (withResult id ok) := by
  rw [view, view, settle, settle, List.filter_map, List.map_map, List.map_map]
  rfl

theorem textsOf_withResult (id : Value) (ok : Bool) :
    textsOf role (messages.map (withResult id ok)) = textsOf role messages := by
  rw [textsOf, textsOf, List.filter_map, List.map_map]
  rfl

/-! ## Texts of a role -/

theorem textsOf_append (messages later : List Message) :
    textsOf role (messages ++ later) = textsOf role messages ++ textsOf role later := by
  rw [textsOf, textsOf, textsOf, List.filter_append, List.map_append]

theorem textsOf_singleton (message : Message) :
    textsOf role [message] = if message.role = role then [message.text] else [] := by
  by_cases hrole : message.role = role
  · simp [textsOf, hrole]
  · simp [textsOf, hrole]

theorem textsOf_settle (messages : List Message) :
    textsOf role (settle messages) = textsOf role messages := by
  unfold textsOf settle
  rw [List.filter_map, List.map_map]
  rfl

/-- The view shows every text of a role that it shows. -/
theorem textsOf_view (hreasoning : role ≠ .reasoning) (herror : role ≠ .error) :
    textsOf role (view messages) = textsOf role messages := by
  rw [view, textsOf_settle, textsOf, textsOf, List.filter_filter]
  apply congrArg
  apply List.filter_congr
  intro message _
  by_cases hrole : message.role = role
  · simp [Message.isShown, hrole, hreasoning, herror]
  · simp [hrole]

/-- What an open message of another role leaves of the texts of a role. -/
theorem textsOf_dropLast {other : Role} (hopen : openIn messages other = true)
    (hother : other ≠ role) : textsOf role messages.dropLast = textsOf role messages := by
  obtain ⟨last, hmessages, hlast⟩ := eq_concat_of_openIn hopen
  have hnone : textsOf role [last] = [] := by
    rw [textsOf_singleton, hlast, if_neg hother]
  conv_rhs => rw [hmessages, textsOf_append, hnone, List.append_nil]

/-- An open message of the role is one text of it. -/
theorem length_textsOf_dropLast (hopen : openIn messages role = true) :
    (textsOf role messages.dropLast).length + 1 = (textsOf role messages).length := by
  obtain ⟨last, hmessages, hlast⟩ := eq_concat_of_openIn hopen
  conv_rhs => rw [hmessages, textsOf_append, textsOf_singleton, if_pos hlast, List.length_append]
  rfl

/-- A list without an open reasoning message shows the same. -/
theorem view_dropLast (hopen : openIn messages .reasoning = true) :
    view messages.dropLast = view messages := by
  obtain ⟨last, hmessages, hlast⟩ := eq_concat_of_openIn hopen
  have hnone : view [last] = [] := by
    simp [view, settle, Message.isShown, hlast]
  conv_rhs => rw [hmessages, view_append, hnone, List.append_nil]

/-! ## What one event does to a list -/

theorem openIn_reduce (messages : List Message) (event : PanelEvent) :
    openIn (reduce browser messages event) .assistant =
      opens (openIn messages .assistant) event := by
  cases event with
  | prompt text => simp [reduce, openIn_concat, opens, adds]
  | error text => simp [reduce, openIn_concat, opens, adds]
  | agent event =>
    cases event with
    | status | usage | todo => simp [reduce, opens, adds]
    | delta text =>
      obtain ⟨message, hrole, hstreaming, hchunk⟩ :=
        chunk_eq messages .assistant (browser.text text "")
      rw [reduce, hchunk, openIn_concat, hrole, hstreaming]
      rfl
    | reasoning text =>
      obtain ⟨message, hrole, hstreaming, hchunk⟩ :=
        chunk_eq messages .reasoning (browser.text text "")
      rw [reduce, hchunk, openIn_concat, hrole]
      simp [opens, adds]
    | text text =>
      rw [reduce]
      split <;> simp [openIn_concat, opens]
    | toolStart tool id input => simp [reduce, openIn_concat, opens, adds]
    | toolEnd id ok => simp [reduce, openIn_withResult, opens, adds]
    | turnEnd reason error =>
      rw [reduce]
      split
      next hfails => simp [openIn_concat, opens, adds, hfails]
      next hcompleted => simp [opens, adds, hcompleted]

/-- Where nothing is abandoned, the list without its open message grows as the one that is
folded from the log. -/
theorem view_durable_reduce (hkept : (openIn messages .assistant && adds event) = false) :
    view (durable (reduce browser messages event)) =
      if keeps event then reduce browser (view (durable messages)) event
      else view (durable messages) := by
  have hclosed : adds event = true → openIn messages .assistant = false := by
    intro hadds
    rwa [hadds, Bool.and_true] at hkept
  have happend : ∀ message : Message, message.streaming = false →
      openIn messages .assistant = false →
      view (durable (messages ++ [message])) = view (durable messages) ++ view [message] := by
    intro message hstreaming hopen
    rw [durable_of_closed hopen, durable_of_closed (by rw [openIn_concat, hstreaming]; rfl),
      view_append]
  cases event with
  | prompt text => exact happend _ rfl (hclosed rfl)
  | error text =>
    rw [reduce, happend _ rfl (hclosed rfl)]
    exact List.append_nil _
  | agent event =>
    cases event with
    | status | usage | todo => simp [reduce, keeps, AgentEvent.isReplayed]
    | delta text =>
      obtain ⟨message, hrole, hstreaming, hchunk⟩ :=
        chunk_eq messages .assistant (browser.text text "")
      rw [reduce, hchunk, durable_concat hrole hstreaming]
      rfl
    | reasoning text =>
      have hopen := hclosed rfl
      obtain ⟨message, hrole, hstreaming, hchunk⟩ :=
        chunk_eq messages .reasoning (browser.text text "")
      have hnone : view [message] = [] := by
        simp [view, settle, Message.isShown, hrole]
      rw [reduce, hchunk, durable_of_closed (by rw [openIn_concat, hrole]; simp), view_append,
        hnone, List.append_nil, durable_of_closed hopen]
      split
      next hreasoning => exact view_dropLast hreasoning
      · rfl
    | text text =>
      have hreduce : reduce browser messages (.agent (.text text)) =
          durable messages ++ [{ role := .assistant, text := text }] := by
        rw [reduce, durable]
        split <;> rfl
      have hview : reduce browser (view (durable messages)) (.agent (.text text)) =
          view (durable messages) ++ [{ role := .assistant, text := text }] := by
        rw [reduce, openIn_view]
        rfl
      rw [hreduce, durable_of_closed (by rw [openIn_concat]; rfl), view_append]
      exact hview.symm
    | toolStart tool id input => exact happend _ rfl (hclosed rfl)
    | toolEnd id ok =>
      rw [reduce, durable_withResult, view_withResult]
      rfl
    | turnEnd reason error =>
      rw [reduce]
      split
      next hfails =>
        rw [happend _ rfl (hclosed hfails)]
        exact List.append_nil _
      · rfl

/-- A message of another role adds no text. -/
theorem textsOf_concat_of_ne {role : Role} {message : Message} (hrole : message.role ≠ role) :
    textsOf role (messages ++ [message]) = textsOf role messages := by
  rw [textsOf_append, textsOf_singleton, if_neg hrole, List.append_nil]

/-- A chunk for another role adds no text. -/
theorem textsOf_chunk_of_ne {role other : Role} {text : String} (hrole : other ≠ role) :
    textsOf role (chunk messages other text) = textsOf role messages := by
  obtain ⟨message, hmessage, -, heq⟩ := chunk_eq messages other text
  rw [heq, textsOf_concat_of_ne (hmessage.trans_ne hrole)]
  split
  next hopen => exact textsOf_dropLast hopen hrole
  · rfl

/-- What a user has typed stays, and a prompt is put behind it. -/
theorem textsOf_user_reduce (messages : List Message) (event : PanelEvent) :
    textsOf .user (reduce browser messages event) =
      textsOf .user messages ++ (prompted event).toList := by
  cases event with
  | prompt text =>
    rw [reduce, textsOf_append]
    rfl
  | error text => exact (textsOf_concat_of_ne (by simp)).trans (List.append_nil _).symm
  | agent event =>
    rw [show prompted (.agent event) = none from rfl, Option.toList_none, List.append_nil]
    cases event with
    | status | usage | todo => rfl
    | delta text => exact textsOf_chunk_of_ne (by simp)
    | reasoning text => exact textsOf_chunk_of_ne (by simp)
    | text text =>
      rw [reduce]
      split
      next hopen =>
        rw [textsOf_append, textsOf_dropLast hopen (by simp)]
        exact List.append_nil _
      · exact textsOf_concat_of_ne (by simp)
    | toolStart tool id input => exact textsOf_concat_of_ne (by simp)
    | toolEnd id ok => exact textsOf_withResult id ok
    | turnEnd reason error =>
      rw [reduce]
      split
      · exact textsOf_concat_of_ne (by simp)
      · rfl

/-- An event adds a text of the assistant where it commits one, and where it abandons one. -/
theorem length_textsOf_reduce (messages : List Message) (event : PanelEvent) :
    (textsOf .assistant (reduce browser messages event)).length +
        (openIn messages .assistant).toNat =
      (textsOf .assistant messages).length + (committed event).toList.length +
        (openIn messages .assistant && adds event).toNat +
          (opens (openIn messages .assistant) event).toNat := by
  have happend : ∀ message : Message, message.role ≠ .assistant →
      textsOf .assistant (messages ++ [message]) = textsOf .assistant messages :=
    fun _ => textsOf_concat_of_ne
  cases event with
  | prompt text => simp [reduce, happend, committed, adds, opens]
  | error text => simp [reduce, happend, committed, adds, opens]
  | agent event =>
    cases event with
    | status | usage | todo => simp [reduce, committed, adds, opens]
    | delta text =>
      obtain ⟨message, hmessage, -, heq⟩ :=
        chunk_eq messages .assistant (browser.text text "")
      rw [reduce, heq, textsOf_append, textsOf_singleton, if_pos hmessage, List.length_append]
      split
      next hopen =>
        have hlength := length_textsOf_dropLast hopen
        simp [hopen, committed, adds, opens]
        omega
      next hclosed =>
        simp [hclosed, committed, adds, opens]
    | reasoning text =>
      have hsame : textsOf .assistant (chunk messages .reasoning (browser.text text "")) =
          textsOf .assistant messages := textsOf_chunk_of_ne (by simp)
      simp [reduce, hsame, committed, adds, opens]
    | text text =>
      rw [reduce]
      split
      next hopen =>
        have hlength := length_textsOf_dropLast hopen
        rw [textsOf_append, textsOf_singleton, if_pos rfl, List.length_append]
        simp [hopen, committed, adds, opens]
        omega
      next hclosed =>
        rw [textsOf_append, textsOf_singleton, if_pos rfl, List.length_append]
        simp [hclosed, committed, adds, opens]
    | toolStart tool id input => simp [reduce, happend, committed, adds, opens]
    | toolEnd id ok => simp [reduce, textsOf_withResult, committed, adds, opens]
    | turnEnd reason error =>
      rw [reduce]
      split
      next hfails => simp [happend, committed, adds, opens, hfails]
      next hcompleted => simp [committed, adds, opens, hcompleted]

/-- In a list without an open message an event of the log adds the text that it commits. -/
theorem textsOf_assistant_reduce (hclosed : openIn messages .assistant = false)
    (hkept : keeps event = true) :
    textsOf .assistant (reduce browser messages event) =
      textsOf .assistant messages ++ (committed event).toList := by
  cases event with
  | prompt text =>
    rw [reduce, textsOf_append]
    rfl
  | error text => cases hkept
  | agent event =>
    cases event with
    | status | usage | delta | reasoning | turnEnd => cases hkept
    | todo items => exact (List.append_nil _).symm
    | text text =>
      rw [reduce, hclosed, if_neg (by simp), textsOf_append]
      rfl
    | toolStart tool id input => exact textsOf_append messages [_]
    | toolEnd id ok => exact (textsOf_withResult id ok).trans (List.append_nil _).symm

/-! ## What the events of a turn do -/

/-- Where nothing is abandoned the list shows what the events of the log are folded to. -/
theorem view_foldl_of_abandoned
    (hnone : abandoned (openIn messages .assistant) events = 0) :
    view (events.foldl (reduce browser) messages) =
      (events.filter keeps).foldl (reduce browser) (view (durable messages)) := by
  induction events generalizing messages with
  | nil =>
    have hclosed : openIn messages .assistant = false := by simpa [abandoned] using hnone
    rw [durable_of_closed hclosed]
    rfl
  | cons event rest ih =>
    obtain ⟨hfirst, hrest⟩ := Nat.add_eq_zero_iff.mp hnone
    have hkept : (openIn messages .assistant && adds event) = false := by simpa using hfirst
    rw [List.foldl_cons, ih (by rw [openIn_reduce]; exact hrest), view_durable_reduce hkept,
      List.filter_cons]
    split
    · rw [List.foldl_cons]
    · rfl

theorem textsOf_user_foldl (messages : List Message) (events : List PanelEvent) :
    textsOf .user (events.foldl (reduce browser) messages) =
      textsOf .user messages ++ events.filterMap prompted := by
  induction events generalizing messages with
  | nil => exact (List.append_nil _).symm
  | cons event rest ih =>
    rw [List.foldl_cons, ih, textsOf_user_reduce, List.append_assoc]
    cases hprompted : prompted event with
    | none => rw [List.filterMap_cons_none hprompted]; rfl
    | some text => rw [List.filterMap_cons_some hprompted]; rfl

/-- The texts of the assistant are those that are committed and those that are abandoned. -/
theorem length_textsOf_foldl (messages : List Message) (events : List PanelEvent) :
    (textsOf .assistant (events.foldl (reduce browser) messages)).length +
        (openIn messages .assistant).toNat =
      (textsOf .assistant messages).length + (events.filterMap committed).length +
        abandoned (openIn messages .assistant) events := by
  induction events generalizing messages with
  | nil => simp [abandoned]
  | cons event rest ih =>
    have hfirst : (textsOf .assistant (reduce browser messages event)).length + _ = _ :=
      length_textsOf_reduce messages event
    have hrest := ih (reduce browser messages event)
    rw [openIn_reduce] at hrest
    rw [List.foldl_cons, abandoned]
    cases hcommitted : committed event with
    | none =>
      rw [List.filterMap_cons_none hcommitted]
      rw [hcommitted, Option.toList_none, List.length_nil] at hfirst
      omega
    | some text =>
      rw [List.filterMap_cons_some hcommitted, List.length_cons]
      rw [hcommitted, Option.toList_some, List.length_singleton] at hfirst
      omega

/-- The events of a log leave nothing open. -/
theorem opens_of_keeps (hkept : keeps event = true) : opens false event = false := by
  cases event with
  | prompt | error => rfl
  | agent event =>
    cases event with
    | delta => cases hkept
    | status | usage | reasoning | text | toolStart | toolEnd | todo | turnEnd => rfl

/-- A log is folded to the texts that it commits. -/
theorem textsOf_assistant_foldl (hclosed : openIn messages .assistant = false)
    (hkept : ∀ event ∈ events, keeps event = true) :
    textsOf .assistant (events.foldl (reduce browser) messages) =
      textsOf .assistant messages ++ events.filterMap committed := by
  induction events generalizing messages with
  | nil => exact (List.append_nil _).symm
  | cons event rest ih =>
    obtain ⟨hfirst, hrest⟩ := List.forall_mem_cons.mp hkept
    have hstill : openIn (reduce browser messages event) .assistant = false := by
      rw [openIn_reduce, hclosed, opens_of_keeps hfirst]
    rw [List.foldl_cons, ih hstill hrest, textsOf_assistant_reduce hclosed hfirst,
      List.append_assoc]
    cases hcommitted : committed event with
    | none => rw [List.filterMap_cons_none hcommitted]; rfl
    | some text => rw [List.filterMap_cons_some hcommitted]; rfl

end DbtCraft.Web.AgentStream

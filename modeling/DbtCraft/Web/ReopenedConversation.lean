/-
# A conversation that is opened again

The list of messages that the panel folds from the session log, against the one that the live
stream built. Of the harness it is assumed that it records a prompt as a message of a user and
marks what it injects, and that it logs the events that it notifies.
-/

import Mathlib.Data.List.ReduceOption
import DbtCraft.Agent.PromptStream
import DbtCraft.Web.MessageViews
import Mathlib.Data.List.Basic

namespace DbtCraft.Web.AgentStream

open DbtCraft.Python DbtCraft.Agent

/-- What the harness notifies in a turn. -/
inductive Emitted
  | status (status : String)
  | event (event : Value)

/-- The notification. -/
def Emitted.message (sessionId : String) : Emitted → Value
  | .status text => statusOf sessionId text
  | .event value => notificationOf [(.str "sessionId", .str sessionId), (.str "event", value)]

/-- The event that is logged; a status is not. -/
def Emitted.logged : Emitted → Option Value
  | .status _ => none
  | .event value => some value

variable (shown : Value → String)

/-- An event of the harness: an object that `normalize` can read, and where it is a message of a
user, one that is marked as injected. -/
structure Known (event : Value) : Prop where
  object : event.isDict = true
  read : ∃ body, bodyOf shown event = .ok body
  injected : ∀ kind, event.get "type" = .ok kind → kind.isText "user/message" = true →
    recordedPrompt shown event = .ok none

/-- A turn of a conversation. -/
structure Turn where
  /-- What the user has typed. -/
  text : String
  context : Option String
  /-- How the prompt stands in the log. -/
  message : Value
  emitted : List Emitted
  /-- `send` refuses a blank text. -/
  typed : text ≠ ""
  kind : ∃ kind, message.get "type" = .ok kind ∧ kind.isText "user/message" = true
  records : userText shown message = .ok (some (postedPrompt text context))
  known : ∀ item ∈ emitted, ∀ event ∈ item.logged, Known shown event

variable {shown} (browser : Browser) (sessionId : String)

/-- The events of the live stream of a turn. -/
def Turn.live (turn : Turn shown) : List PanelEvent :=
  turn.emitted.filterMap fun item =>
    (PromptStream.visible shown sessionId (item.message sessionId)).map .agent

/-- The messages that the live stream has built at the end of the last turn. -/
def liveMessages (turns : List (Turn shown)) : List Message :=
  turns.foldl (fun messages turn => send browser messages turn.text (turn.live sessionId)) []

/-- The session log of a conversation. -/
def logOf (turns : List (Turn shown)) : List Value :=
  turns.flatMap fun turn => turn.message :: turn.emitted.filterMap Emitted.logged

/-- The messages of a conversation that is opened again. -/
def reopened (turns : List (Turn shown)) : Except Raised (List Message) :=
  (readHistory shown (readEvents ((logOf turns).map .event))).map (openSession browser)

/-! ## The guarantee -/

/-- The two lists are the same up to reasoning and errors; the texts of the assistant in them
are those that were committed, and the texts of the user those that were typed. -/
structure Right (turns : List (Turn shown)) : Prop where
  same : ∃ messages, reopened browser turns = .ok messages ∧
    view (liveMessages browser sessionId turns) = view messages
  committed : textsOf .assistant (view (liveMessages browser sessionId turns)) =
    turns.flatMap fun turn => (turn.live sessionId).filterMap committed
  prompted : textsOf .user (view (liveMessages browser sessionId turns)) = turns.map (·.text)

variable (shown) in
/-- The messages that a log is folded to. -/
def replay (log : List Value) : List Message :=
  match readHistory shown log with
  | .ok events => openSession browser events
  | .error _ => []

variable (shown) in
/-- What a log shows after its first `MAX_EVENTS` lines is nothing that was not there. -/
def Uncut (log : List Value) : Prop :=
  view (replay shown browser (log.take maxEvents)) =
    view (replay shown browser log)

/-- The prompts are posted as they are typed and do not read like an injected message, each
message that text chunks open is settled, and the log is not cut where it shows anything. -/
structure Faithful (turns : List (Turn shown)) : Prop where
  plain : ∀ turn ∈ turns, (turn.context = none ∨ turn.context = some "") ∧
    isPlumbing turn.text = false
  settled : ∀ turn ∈ turns, abandoned false (turn.live sessionId) = 0
  uncut : Uncut shown browser (logOf turns)

/-! ## Live and replayed events -/

variable {browser sessionId} {event : Value} {turn : Turn shown} {turns : List (Turn shown)}

theorem orEmpty_dict (items : List (Value × Value)) : orEmpty (.dict items) = .dict items := by
  cases items with
  | nil => rfl
  | cons first rest => rfl

/-- A message of a user is nothing in the live stream. -/
theorem eventOf_userMessage {kind : Value} (hkind : kind.isText "user/message" = true)
    (data : Value) : eventOf shown kind data = .ok none := by
  cases kind with
  | str text =>
    rw [show text = "user/message" from of_decide_eq_true hkind]
    rfl
  | none | bool | int | float | nonFinite | list | dict | object => cases hkind

/-- A known event is replayed where it is live, if it is one that is replayed. -/
theorem Known.replayed_eq (hknown : Known shown event) {body : Option AgentEvent}
    (hbody : bodyOf shown event = .ok body) :
    replayed shown event = .ok ((body.filter AgentEvent.isReplayed).map .agent) := by
  cases event with
  | dict items =>
    have hbody' := hbody
    rw [bodyOf, orEmpty_dict] at hbody'
    obtain ⟨kind, hkind, hrest⟩ := bind_eq_ok.mp hbody'
    obtain ⟨data, hdata, heventOf⟩ := bind_eq_ok.mp hrest
    unfold replayed
    rw [hkind]
    simp only [bind, Except.bind]
    split
    next huser =>
      rw [eventOf_userMessage huser] at heventOf
      cases heventOf
      exact hknown.injected kind hkind huser
    · rw [normalize_logged, hbody]
      cases body with
      | none => rfl
      | some body => rfl
  | none | bool | int | float | nonFinite | str | list | object => cases hknown.object

/-- A known event is live as its body. -/
theorem visible_event {body : Option AgentEvent} (hbody : bodyOf shown event = .ok body) :
    PromptStream.visible shown sessionId ((Emitted.event event).message sessionId) = body := by
  have hnormalize : normalize shown ((Emitted.event event).message sessionId) =
      .ok (body.map fun body => ⟨body, .str sessionId⟩) := by
    rw [Emitted.message, normalize_live, hbody]
    rfl
  rw [PromptStream.visible, hnormalize]
  cases body with
  | none => rfl
  | some body => exact if_pos (decide_eq_true rfl)

/-- A status is live and is not folded. -/
theorem visible_status (status : String) :
    PromptStream.visible shown sessionId ((Emitted.status status).message sessionId) =
      some (.status (.str status)) := by
  rw [PromptStream.visible, Emitted.message, normalize_statusOf]
  exact if_pos (decide_eq_true rfl)

variable (shown) in
/-- What an event of the log is replayed as, if anything. -/
def entryOf (event : Value) : Option PanelEvent :=
  match replayed shown event with
  | .ok entry => entry
  | .error _ => none

/-- The prompt of a turn that is replayed. -/
def Turn.prompt (turn : Turn shown) : Option String :=
  (some (postedPrompt turn.text turn.context)).filter fun text => text ≠ "" && !isPlumbing text

theorem replayed_message (turn : Turn shown) :
    replayed shown turn.message = .ok (turn.prompt.map .prompt) := by
  obtain ⟨kind, hkind, huser⟩ := turn.kind
  rw [replayed, hkind]
  simp only [bind, Except.bind, huser, if_true, recordedPrompt, turn.records]
  rfl

/-- The events of a turn are replayed as those of its live stream that the log keeps. -/
theorem filterMap_entryOf_logged (turn : Turn shown) :
    (turn.emitted.filterMap Emitted.logged).filterMap (entryOf shown) =
      (turn.live sessionId).filter keeps := by
  rw [Turn.live, List.filterMap_filterMap, List.filter_filterMap]
  apply List.filterMap_congr
  intro item hitem
  cases item with
  | status text =>
    rw [visible_status]
    rfl
  | event value =>
    have hknown := turn.known _ hitem value rfl
    obtain ⟨body, hbody⟩ := hknown.read
    rw [visible_event hbody, Emitted.logged, Option.bind_some, entryOf,
      hknown.replayed_eq hbody]
    cases body with
    | none => rfl
    | some body =>
      cases hreplayed : body.isReplayed with
      | true => simp [keeps, hreplayed, Option.filter]
      | false => simp [keeps, hreplayed, Option.filter]

/-! ## The two lists -/

variable (sessionId) in
/-- What a conversation is replayed as. -/
def entries (turns : List (Turn shown)) : List PanelEvent :=
  turns.flatMap fun turn =>
    (turn.prompt.map PanelEvent.prompt).toList ++ (turn.live sessionId).filter keeps

theorem filterMap_entryOf_logOf :
    (logOf turns).filterMap (entryOf shown) = entries sessionId turns := by
  rw [logOf, entries, List.filterMap_flatMap]
  congr 1
  funext turn
  have hmessage : entryOf shown turn.message = turn.prompt.map .prompt := by
    rw [entryOf, replayed_message]
  rw [List.filterMap_cons, filterMap_entryOf_logged, hmessage]
  cases turn.prompt with
  | none => rfl
  | some text => rfl

/-- Every event of the log of a conversation can be replayed. -/
theorem replayed_of_mem (hevent : event ∈ logOf turns) :
    replayed shown event = .ok (entryOf shown event) := by
  obtain ⟨turn, -, hmem⟩ := List.mem_flatMap.mp hevent
  rcases List.mem_cons.mp hmem with rfl | hlogged
  · rw [entryOf, replayed_message]
  · obtain ⟨item, hitem, hitem'⟩ := List.mem_filterMap.mp hlogged
    have hknown := turn.known item hitem event hitem'
    obtain ⟨body, hbody⟩ := hknown.read
    rw [entryOf, hknown.replayed_eq hbody]

theorem readHistory_eq {log : List Value}
    (hlog : ∀ event ∈ log, replayed shown event = .ok (entryOf shown event)) :
    readHistory shown log = .ok (log.filterMap (entryOf shown)) := by
  have hmap : log.mapM (replayed shown) = .ok (log.map (entryOf shown)) := by
    induction log with
    | nil => rfl
    | cons first rest ih =>
      obtain ⟨hfirst, hrest⟩ := List.forall_mem_cons.mp hlog
      rw [List.mapM_cons, hfirst, ih hrest]
      rfl
  rw [readHistory, hmap]
  simp only [bind, Except.bind, List.reduceOption, List.filterMap_map]
  rfl

theorem replay_eq {log : List Value}
    (hlog : ∀ event ∈ log, replayed shown event = .ok (entryOf shown event)) :
    replay shown browser log = openSession browser (log.filterMap (entryOf shown)) := by
  rw [replay, readHistory_eq hlog]

theorem untilTorn_map (log : List Value) : untilTorn (log.map .event) = log := by
  induction log with
  | nil => rfl
  | cons first rest ih => rw [List.map_cons, untilTorn, ih]

/-- A conversation is opened again with what the first lines of its log are folded to. -/
theorem reopened_eq :
    reopened browser turns =
      .ok (openSession browser (((logOf turns).take maxEvents).filterMap (entryOf shown))) := by
  rw [reopened, readEvents, ← List.map_take, untilTorn_map,
    readHistory_eq fun event hevent => replayed_of_mem (List.mem_of_mem_take hevent)]
  rfl

theorem textsOf_user_liveMessages :
    textsOf .user (liveMessages browser sessionId turns) = turns.map (·.text) := by
  have hfold : ∀ messages, textsOf .user (turns.foldl (fun messages turn =>
      send browser messages turn.text (turn.live sessionId)) messages) =
        textsOf .user messages ++ turns.map (·.text) := by
    induction turns with
    | nil => exact fun messages => (List.append_nil _).symm
    | cons turn rest ih =>
      intro messages
      have hnone : (turn.live sessionId).filterMap prompted = [] := by
        rw [Turn.live, List.filterMap_filterMap, List.filterMap_eq_nil_iff]
        intro item _
        cases PromptStream.visible shown sessionId (item.message sessionId) with
        | none => rfl
        | some event => rfl
      rw [List.foldl_cons, ih, send, textsOf_settle, textsOf_user_foldl, hnone, List.append_nil,
        textsOf_user_reduce, List.append_assoc]
      rfl
  exact hfold []

/-- The texts of the assistant in the live list. -/
theorem length_textsOf_liveMessages :
    (textsOf .assistant (liveMessages browser sessionId turns)).length =
      (turns.flatMap fun turn => (turn.live sessionId).filterMap committed).length +
        (turns.map fun turn => abandoned false (turn.live sessionId)).sum := by
  have hfold : ∀ messages, (textsOf .assistant (turns.foldl (fun messages turn =>
      send browser messages turn.text (turn.live sessionId)) messages)).length =
        (textsOf .assistant messages).length +
          (turns.flatMap fun turn => (turn.live sessionId).filterMap committed).length +
            (turns.map fun turn => abandoned false (turn.live sessionId)).sum := by
    induction turns with
    | nil => exact fun messages => rfl
    | cons turn rest ih =>
      intro messages
      have hopen : openIn (reduce browser messages (.prompt turn.text)) .assistant = false := by
        rw [openIn_reduce]
        simp [opens, adds]
      have hturn : (textsOf .assistant ((turn.live sessionId).foldl (reduce browser) _)).length +
          _ = _ :=
        length_textsOf_foldl (reduce browser messages (.prompt turn.text)) (turn.live sessionId)
      have hprompt : textsOf .assistant (reduce browser messages (.prompt turn.text)) =
          textsOf .assistant messages := by
        rw [reduce, textsOf_append]
        exact List.append_nil _
      rw [hopen, hprompt, Bool.toNat_false, Nat.add_zero] at hturn
      rw [List.foldl_cons, ih, send, textsOf_settle, hturn, List.flatMap_cons, List.length_append,
        List.map_cons, List.sum_cons]
      omega
  exact (hfold []).trans (by simp [textsOf])

/-- Where every message is settled, the live list shows the prompts as they were typed and what
the log keeps of the events. -/
theorem view_liveMessages
    (hsettled : ∀ turn ∈ turns, abandoned false (turn.live sessionId) = 0) :
    view (liveMessages browser sessionId turns) =
      openSession browser (turns.flatMap fun turn =>
        .prompt turn.text :: (turn.live sessionId).filter keeps) := by
  have hfold : ∀ messages, view (turns.foldl (fun messages turn =>
      send browser messages turn.text (turn.live sessionId)) messages) =
        (turns.flatMap fun turn => .prompt turn.text :: (turn.live sessionId).filter keeps).foldl
          (reduce browser) (view messages) := by
    induction turns with
    | nil => exact fun messages => rfl
    | cons turn rest ih =>
      intro messages
      obtain ⟨hfirst, hrest⟩ := List.forall_mem_cons.mp hsettled
      have hopen : openIn (reduce browser messages (.prompt turn.text)) .assistant = false := by
        rw [openIn_reduce]
        simp [opens, adds]
      have hnone : abandoned (openIn (reduce browser messages (.prompt turn.text)) .assistant)
          (turn.live sessionId) = 0 := hopen ▸ hfirst
      have hturn : view ((turn.live sessionId).foldl (reduce browser) _) = _ :=
        view_foldl_of_abandoned hnone
      rw [durable_of_closed hopen] at hturn
      rw [List.foldl_cons, ih hrest, send, view_settle, hturn, List.flatMap_cons,
        List.foldl_append, List.foldl_cons]
      rw [reduce, reduce, view_append]
      rfl
  exact hfold []

/-! ## When they agree -/

/-- What a log keeps of a live stream it keeps with every text that is committed. -/
theorem filterMap_committed_keeps (events : List PanelEvent) :
    (events.filter keeps).filterMap committed = events.filterMap committed := by
  rw [List.filterMap_filter]
  apply List.filterMap_congr
  intro event _
  cases event with
  | prompt | error => rfl
  | agent event => cases event <;> rfl

theorem filterMap_committed_entries :
    (entries sessionId turns).filterMap committed =
      turns.flatMap fun turn => (turn.live sessionId).filterMap committed := by
  rw [entries, List.filterMap_flatMap]
  congr 1
  funext turn
  rw [List.filterMap_append, filterMap_committed_keeps]
  cases turn.prompt with
  | none => rfl
  | some text => rfl

theorem filterMap_prompted_entries :
    (entries sessionId turns).filterMap prompted = turns.filterMap Turn.prompt := by
  rw [entries, List.filterMap_flatMap, List.filterMap_eq_flatMap_toList]
  congr 1
  funext turn
  have hnone : ((turn.live sessionId).filter keeps).filterMap prompted = [] := by
    rw [List.filterMap_eq_nil_iff]
    intro event hevent
    obtain ⟨item, -, hitem⟩ := List.mem_filterMap.mp (List.mem_filter.mp hevent).1
    obtain ⟨body, -, rfl⟩ := Option.map_eq_some_iff.mp hitem
    rfl
  rw [List.filterMap_append, hnone, List.append_nil]
  cases turn.prompt with
  | none => rfl
  | some text => rfl

theorem keeps_of_mem_entries {event : PanelEvent} (hevent : event ∈ entries sessionId turns) :
    keeps event = true := by
  obtain ⟨turn, -, hmem⟩ := List.mem_flatMap.mp hevent
  rcases List.mem_append.mp hmem with hprompt | hlive
  · obtain ⟨text, -, rfl⟩ := Option.map_eq_some_iff.mp (Option.mem_toList.mp hprompt)
    rfl
  · exact (List.mem_filter.mp hlive).2

/-- A prompt is replayed as it was typed exactly when it was posted so and is not taken for an
injected message. -/
theorem prompt_eq_some_iff : turn.prompt = some turn.text ↔
    (turn.context = none ∨ turn.context = some "") ∧ isPlumbing turn.text = false := by
  unfold Turn.prompt
  rw [Option.filter_eq_some_iff, Option.some.injEq]
  apply Iff.intro
  · rintro ⟨hposted, hkept⟩
    rw [Bool.and_eq_true, Bool.not_eq_true'] at hkept
    refine ⟨?_, hkept.2⟩
    cases hcontext : turn.context with
    | none => exact .inl rfl
    | some context =>
      rw [hcontext, postedPrompt] at hposted
      split at hposted
      next hempty => exact .inr (congrArg some hempty)
      next hnonempty =>
        -- The posted prompt is longer than the typed one.
        have hlength := congrArg String.length hposted
        rw [String.length_append, String.length_append] at hlength
        have hseparator : ("\n\n" : String).length = 2 := rfl
        omega
  · rintro ⟨hcontext, hplain⟩
    have hposted : postedPrompt turn.text turn.context = turn.text := by
      rcases hcontext with hnone | hempty
      · rw [hnone]
        rfl
      · rw [hempty, postedPrompt, if_pos rfl]
    exact ⟨hposted, by simp [turn.typed, hplain]⟩

/-- A list of results is as long as the list it is made of where each item has one. -/
theorem eq_some_of_prefix_filterMap {α β : Type} {f : α → β} {g : α → Option β} {items : List α}
    (hinitial : items.map f <+: items.filterMap g) : ∀ item ∈ items, g item = some (f item) := by
  induction items with
  | nil => exact fun _ hitem => absurd hitem List.not_mem_nil
  | cons first rest ih =>
    cases hfirst : g first with
    | none =>
      rw [List.filterMap_cons_none hfirst] at hinitial
      have hlength := hinitial.length_le
      have hshorter : (rest.filterMap g).length ≤ rest.length := List.length_filterMap_le g rest
      rw [List.length_map, List.length_cons] at hlength
      omega
    | some result =>
      rw [List.filterMap_cons_some hfirst, List.map_cons, List.cons_prefix_cons] at hinitial
      rw [List.forall_mem_cons]
      exact ⟨hfirst.trans (congrArg some hinitial.1.symm), ih hinitial.2⟩

/-- With plain prompts a conversation is replayed as it was typed. -/
theorem entries_of_prompt (hplain : ∀ turn ∈ turns, turn.prompt = some turn.text) :
    entries sessionId turns =
      turns.flatMap fun turn => .prompt turn.text :: (turn.live sessionId).filter keeps := by
  rw [entries]
  apply List.flatMap_congr
  intro turn hturn
  rw [hplain turn hturn]
  rfl

/-- The lists agree exactly when the conversation is faithfully logged. -/
theorem right_iff_faithful (shown : Value → String) (browser : Browser) (sessionId : String)
    (turns : List (Turn shown)) :
    Right browser sessionId turns ↔ Faithful browser sessionId turns := by
  -- What is folded from the log as far as it is read, and from the whole log.
  let read := ((logOf turns).take maxEvents).filterMap (entryOf shown)
  have hread : read <+: entries sessionId turns := by
    have htaken : (logOf turns).take maxEvents <+: logOf turns := List.take_prefix _ _
    rw [← filterMap_entryOf_logOf]
    exact htaken.filterMap _
  have hkeeps : ∀ event ∈ read, keeps event = true :=
    fun event hevent => keeps_of_mem_entries (hread.subset hevent)
  have huncut : Uncut shown browser (logOf turns) ↔
      view (openSession browser read) = view (openSession browser (entries sessionId turns)) := by
    rw [Uncut, replay_eq fun event hevent => replayed_of_mem (List.mem_of_mem_take hevent),
      replay_eq fun event hevent => replayed_of_mem hevent, filterMap_entryOf_logOf]
  have hwhole : (∀ turn ∈ turns, turn.prompt = some turn.text) →
      (∀ turn ∈ turns, abandoned false (turn.live sessionId) = 0) →
        view (liveMessages browser sessionId turns) =
          view (openSession browser (entries sessionId turns)) := by
    intro hplain hsettled
    rw [entries_of_prompt hplain, ← view_liveMessages hsettled, view_view]
  apply Iff.intro
  · intro hright
    obtain ⟨messages, hmessages, hsame⟩ := hright.same
    rw [reopened_eq] at hmessages
    cases hmessages
    have husers : turns.map (·.text) = read.filterMap prompted := by
      rw [← textsOf_user_liveMessages, ← textsOf_view (by simp) (by simp), hsame,
        textsOf_view (by simp) (by simp), openSession, textsOf_user_foldl]
      rfl
    have hplain : ∀ turn ∈ turns, turn.prompt = some turn.text := by
      apply eq_some_of_prefix_filterMap
      rw [husers, ← filterMap_prompted_entries]
      exact hread.filterMap _
    have hassistant : (textsOf .assistant (liveMessages browser sessionId turns)).length =
        (read.filterMap committed).length := by
      rw [← textsOf_view (by simp) (by simp), hsame, textsOf_view (by simp) (by simp), openSession,
        textsOf_assistant_foldl rfl hkeeps]
      rfl
    have hsum : (turns.map fun turn => abandoned false (turn.live sessionId)).sum = 0 := by
      have hlength := (hread.filterMap committed).length_le
      rw [filterMap_committed_entries, ← hassistant, length_textsOf_liveMessages] at hlength
      omega
    have hsettled : ∀ turn ∈ turns, abandoned false (turn.live sessionId) = 0 :=
      fun turn hturn => List.sum_eq_zero_iff_forall_eq_nat.mp hsum _ (List.mem_map.mpr ⟨turn, hturn, rfl⟩)
    exact
      { plain := fun turn hturn => prompt_eq_some_iff.mp (hplain turn hturn)
        settled := hsettled
        uncut := huncut.mpr (hsame.symm.trans (hwhole hplain hsettled)) }
  · intro hfaithful
    have hplain : ∀ turn ∈ turns, turn.prompt = some turn.text :=
      fun turn hturn => prompt_eq_some_iff.mpr (hfaithful.plain turn hturn)
    have hlive := hwhole hplain hfaithful.settled
    exact
      { same := ⟨_, reopened_eq, hlive.trans (huncut.mp hfaithful.uncut).symm⟩
        committed := by
          rw [hlive, textsOf_view (by simp) (by simp), openSession,
            textsOf_assistant_foldl rfl fun event hevent => keeps_of_mem_entries hevent,
            filterMap_committed_entries]
          rfl
        prompted := (textsOf_view (by simp) (by simp)).trans textsOf_user_liveMessages }

/-! ## A conversation that changes -/

/-- A prompt as the harness logs it. -/
def sampleMessage (text : String) : Value :=
  .dict [(.str "type", .str "user/message"),
    (.str "data", .dict [(.str "content",
      .list [.dict [(.str "type", .str "text"), (.str "text", .str text)]])])]

/-- A turn without an answer, with what the panel knows of the workspace. -/
def sampleTurn : Turn fun _ => "" where
  text := "hi"
  context := some "ctx"
  message := sampleMessage "ctx\n\nhi"
  emitted := []
  typed := by decide
  kind := ⟨_, rfl, by decide⟩
  records := rfl
  known _ hitem := absurd hitem List.not_mem_nil

/-- The context of a prompt is shown when its conversation is opened again. -/
theorem not_right_of_context :
    ¬ ∀ (browser : Browser) (sessionId : String) (turns : List (Turn fun _ => "")),
      Right browser sessionId turns := by
  intro hclaim
  obtain ⟨messages, hmessages, hsame⟩ := (hclaim ⟨fun _ => "", fun _ => ""⟩ "s" [sampleTurn]).same
  have hprompt : sampleTurn.prompt = some "ctx\n\nhi" := by decide +kernel
  have hentry : entryOf (fun _ => "") sampleTurn.message = some (.prompt "ctx\n\nhi") := by
    rw [entryOf, replayed_message, hprompt]
    rfl
  have hlog : (logOf [sampleTurn]).take maxEvents = [sampleTurn.message] := rfl
  have hreopened : reopened ⟨fun _ => "", fun _ => ""⟩ [sampleTurn] =
      .ok [{ role := .user, text := "ctx\n\nhi" }] := by
    rw [reopened_eq, hlog, List.filterMap_cons_some hentry]
    rfl
  have hlive : view (liveMessages ⟨fun _ => "", fun _ => ""⟩ "s" [sampleTurn]) =
      [{ role := .user, text := "hi" }] := rfl
  rw [hreopened] at hmessages
  cases hmessages
  rw [hlive] at hsame
  have htext := congrArg (List.map Message.text) hsame
  exact absurd (List.head_eq_of_cons_eq htext) (by decide)

end DbtCraft.Web.AgentStream

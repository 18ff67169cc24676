/-
# Every change is noticed

A client of the file watcher gets a notification for each change of a path that is not
ignored, or for a later one, if the last change of each such path is reported, and only
then. The debounce time starts at the first event of a burst, so the last one may be
suppressed, and of a move only the source is looked at.
-/

import DbtCraft.Services.FileWatcher
import Mathlib.Data.List.Induction
import Mathlib.Tactic.Common

namespace DbtCraft.Services.FileWatcher

open DbtCraft.Python

variable {project path other : List String} {state : State} {items past future : List Item}
  {item : Item} {now : ℤ} {event : FileSystemEvent} {notification : FileWatcherEvent} {serial : ℕ}

/-! ## Names -/

theorem getRelativePath_eq : getRelativePath project path =
    if project <+: path then ⟨false, path.drop project.length⟩ else ⟨true, path⟩ := by
  unfold getRelativePath Path.relativeTo pathOf
  by_cases hinside : project <+: path
  · simp [hinside]
  · simp [hinside]

/-- A path is known by the way it is shown. -/
theorem getRelativePath_inj :
    getRelativePath project path = getRelativePath project other ↔ path = other := by
  apply Iff.intro _ fun hsame => by rw [hsame]
  rw [getRelativePath_eq, getRelativePath_eq]
  intro hsame
  split at hsame
  next hpath =>
    split at hsame
    next hother =>
      have hdrop : path.drop project.length = other.drop project.length :=
        congrArg Path.parts hsame
      rw [← List.prefix_iff_eq_append.mp hpath, hdrop, List.prefix_iff_eq_append.mp hother]
    · cases hsame
  · split at hsame
    · cases hsame
    · exact congrArg Path.parts hsame

/-- The notification for an event names the paths that the event affects. -/
theorem names_watcherEvent :
    (watcherEvent project serial event).Names project path ↔ path ∈ event.affected := by
  cases event with
  | changed kind srcPath isDirectory =>
    simp [FileWatcherEvent.Names, watcherEvent, FileSystemEvent.affected, getRelativePath_inj,
      eq_comm]
  | moved srcPath destPath isDirectory =>
    simp [FileWatcherEvent.Names, watcherEvent, FileSystemEvent.affected, getRelativePath_inj,
      eq_comm]

/-! ## Runs -/

theorem runFrom_cons :
    runFrom project state (item :: items) = runFrom project (next project state item) items := rfl

theorem run_append : run project (past ++ items) = runFrom project (run project past) items :=
  List.foldl_append

theorem next_deliver : next project state .deliver =
    match state.posted with
    | [] => state
    | event :: rest =>
      if state.queue.length < queueLimit then
        { state with posted := rest, queue := state.queue ++ [event] }
      else { state with posted := rest } := rfl

theorem next_send : next project state .send =
    match state.queue with
    | [] => state
    | event :: rest => { state with queue := rest, received := state.received ++ [event] } := rfl

theorem handled_onEvent : (onEvent project state now event).handled = state.handled + 1 := by
  unfold onEvent
  split <;> rfl

theorem handled_le_next : state.handled ≤ (next project state item).handled := by
  unfold next
  split
  · rw [handled_onEvent]
    exact Nat.le_succ _
  · split
    · exact le_rfl
    · split <;> exact le_rfl
  · split <;> exact le_rfl

theorem handled_le_runFrom : state.handled ≤ (runFrom project state items).handled := by
  induction items generalizing state with
  | nil => exact le_rfl
  | cons item rest ih => exact handled_le_next.trans ih

/-- What is kept after a step was kept before it, or is the notification for the event. -/
theorem mem_kept_next (hkept : notification ∈ (next project state item).kept) :
    notification ∈ state.kept ∨ ∃ now event, item = .fileSystem now event ∧
      reports state now event = true ∧
        notification = watcherEvent project state.handled event := by
  unfold State.kept at hkept ⊢
  unfold next at hkept
  split at hkept
  next now event =>
    unfold onEvent at hkept
    split at hkept
    next hreports =>
      simp only [List.mem_append, List.mem_singleton] at hkept ⊢
      rcases hkept with ((hposted | hnew) | hqueue) | hreceived
      · exact .inl (.inl (.inl hposted))
      · exact .inr ⟨now, event, rfl, hreports, hnew⟩
      · exact .inl (.inl (.inr hqueue))
      · exact .inl (.inr hreceived)
    · exact .inl hkept
  · split at hkept
    · exact .inl hkept
    next first rest hposted =>
      rw [hposted]
      split at hkept
      · simp only [List.mem_append, List.mem_cons] at hkept ⊢
        tauto
      · simp only [List.mem_append, List.mem_cons] at hkept ⊢
        tauto
  · split at hkept
    · exact .inl hkept
    next first rest hqueue =>
      rw [hqueue]
      simp only [List.mem_append, List.mem_cons] at hkept ⊢
      tauto

/-- What is kept was made for an event that was reported. -/
theorem origin_of_mem_kept (hkept : notification ∈ (run project items).kept) :
    ∃ past now event future, items = past ++ Item.fileSystem now event :: future ∧
      reports (run project past) now event = true ∧
        notification = watcherEvent project (run project past).handled event := by
  induction items using List.reverseRecOn with
  | nil => simp [run, runFrom, State.kept] at hkept
  | append_singleton items item ih =>
    rw [run_append] at hkept
    rcases mem_kept_next hkept with hold | ⟨now, event, rfl, hreports, hnew⟩
    · obtain ⟨past, now, event, future, rfl, hreports, hsame⟩ := ih hold
      exact ⟨past, now, event, future ++ [item], by simp, hreports, hsame⟩
    · exact ⟨items, now, event, [], rfl, hreports, hnew⟩

theorem serial_watcherEvent : (watcherEvent project serial event).serial = serial := by
  cases event <;> rfl

theorem handled_lt_of_event :
    (run project past).handled < (run project (past ++ Item.fileSystem now event :: future)).handled := by
  rw [run_append, runFrom_cons]
  apply lt_of_lt_of_le _ handled_le_runFrom
  rw [next, handled_onEvent]
  exact Nat.lt_succ_self _

theorem serial_lt_of_mem_kept (hkept : notification ∈ (run project items).kept) :
    notification.serial < (run project items).handled := by
  obtain ⟨past, now, event, future, rfl, -, rfl⟩ := origin_of_mem_kept hkept
  rw [serial_watcherEvent]
  exact handled_lt_of_event

/-! ## On the way to the client -/

/-- What the client has been sent or finds in its queue stays there. -/
theorem mem_kept_of_delivered (hdelivered : notification ∈ state.queue ++ state.received) :
    notification ∈ (runFrom project state items).kept := by
  induction items generalizing state with
  | nil =>
    rw [runFrom, List.foldl_nil, State.kept, List.append_assoc]
    exact List.mem_append_right _ hdelivered
  | cons item rest ih =>
    apply ih
    unfold next
    split
    · unfold onEvent
      split <;> exact hdelivered
    · split
      · exact hdelivered
      · split
        · simp only [List.mem_append] at hdelivered ⊢
          tauto
        · exact hdelivered
    · split
      · exact hdelivered
      next first rest hqueue =>
        rw [hqueue] at hdelivered
        simp only [List.mem_append, List.mem_cons, List.not_mem_nil] at hdelivered ⊢
        tauto

/-- What is gone does not come back. -/
theorem not_mem_kept_of_lost (hlost : notification ∉ state.kept)
    (hserial : notification.serial < state.handled) :
    notification ∉ (runFrom project state items).kept := by
  induction items generalizing state with
  | nil => exact hlost
  | cons item rest ih =>
    apply ih _ (hserial.trans_le handled_le_next)
    intro hkept
    rcases mem_kept_next hkept with hold | ⟨now, event, -, -, rfl⟩
    · exact hlost hold
    · rw [serial_watcherEvent] at hserial
      exact lt_irrefl _ hserial

/-- A posted notification gets to the client if its queue has room when it is delivered. -/
theorem mem_kept_iff_findsRoom {before behind : List FileWatcherEvent}
    (hposted : state.posted = before ++ notification :: behind)
    (hothers : notification ∉ before ++ behind ++ state.queue ++ state.received)
    (hserial : notification.serial < state.handled) :
    notification ∈ (runFrom project state items).kept ↔
      FindsRoom project state before.length items := by
  induction items generalizing state before behind with
  | nil => simp [runFrom, FindsRoom, State.kept, hposted]
  | cons item rest ih =>
    rw [runFrom_cons]
    have hlater := hserial.trans_le (@handled_le_next project state item)
    cases item with
    | fileSystem now event =>
      show _ ↔ FindsRoom project (onEvent project state now event) before.length rest
      change notification.serial < (onEvent project state now event).handled at hlater
      show notification ∈ (runFrom project (onEvent project state now event) rest).kept ↔ _
      unfold onEvent at hlater ⊢
      split
      next hreports =>
        rw [if_pos hreports] at hlater
        have hnew : notification ≠ watcherEvent project state.handled event := by
          rintro rfl
          rw [serial_watcherEvent] at hserial
          exact lt_irrefl _ hserial
        have hlonger : state.posted ++ [watcherEvent project state.handled event] =
            before ++ notification :: (behind ++ [watcherEvent project state.handled event]) := by
          simp [hposted]
        apply ih hlonger _ hlater
        simp only [List.mem_append, List.mem_singleton] at hothers ⊢
        tauto
      next hreports =>
        rw [if_neg hreports] at hlater
        exact ih hposted hothers hlater
    | deliver =>
      rw [next_deliver, hposted] at hlater ⊢
      cases before with
      | nil =>
        rw [List.length_nil, FindsRoom]
        rw [List.nil_append] at hothers
        dsimp only [List.nil_append] at hlater ⊢
        split
        next hroom =>
          apply iff_of_true _ hroom
          exact mem_kept_of_delivered (by simp)
        next hroom =>
          rw [if_neg hroom] at hlater
          apply iff_of_false _ hroom
          apply not_mem_kept_of_lost _ hlater
          simpa only [State.kept] using hothers
      | cons first ahead =>
        rw [List.length_cons, FindsRoom, next_deliver, hposted]
        simp only [List.cons_append, List.mem_cons, List.mem_append] at hothers
        dsimp only [List.cons_append] at hlater ⊢
        split
        next hroom =>
          rw [if_pos hroom] at hlater
          apply ih rfl _ hlater
          simp only [List.mem_append, List.mem_singleton]
          tauto
        next hroom =>
          rw [if_neg hroom] at hlater
          apply ih rfl _ hlater
          simp only [List.mem_append]
          tauto
    | send =>
      show _ ↔ FindsRoom project (next project state .send) before.length rest
      rw [next_send] at hlater ⊢
      split
      next hqueue =>
        rw [hqueue] at hlater
        exact ih hposted hothers hlater
      next first more hqueue =>
        rw [hqueue] at hlater hothers
        have hsame : ({ state with queue := more, received := state.received ++ [first] } :
            State).posted = before ++ notification :: behind := hposted
        apply ih hsame _ hlater
        simp only [List.mem_append, List.mem_cons] at hothers ⊢
        tauto

/-! ## The last change -/

/-- Of two events of a run, the later one is not before the number of the earlier. -/
theorem same_or_later {past' future' : List Item} {now' : ℤ} {event' : FileSystemEvent}
    (hitems : items = past ++ Item.fileSystem now event :: future)
    (hitems' : items = past' ++ Item.fileSystem now' event' :: future')
    (hle : (run project past).handled ≤ (run project past').handled) :
    (past' = past ∧ now' = now ∧ event' = event) ∨ .fileSystem now' event' ∈ future := by
  rw [hitems] at hitems'
  rcases List.append_eq_append_iff.mp hitems' with ⟨between, hpast, hrest⟩ | ⟨between, hpast, hrest⟩
  · cases between with
    | nil =>
      rw [List.nil_append] at hrest
      cases hrest
      exact .inl ⟨by simpa using hpast, rfl, rfl⟩
    | cons first more =>
      rw [List.cons_append] at hrest
      cases hrest
      exact .inr (List.mem_append_right _ List.mem_cons_self)
  · cases between with
    | nil =>
      rw [List.nil_append] at hrest
      cases hrest
      exact .inl ⟨by simpa using hpast.symm, rfl, rfl⟩
    | cons first more =>
      rw [List.cons_append] at hrest
      cases hrest
      rw [hpast] at hle
      exact absurd handled_lt_of_event (Nat.not_lt.mpr hle)

/-- Among an event and those behind it there is a last one that affects a path. -/
theorem exists_last_event (hpath : path ∈ event.affected) (future : List Item) :
    ∃ between now' event' rest,
      Item.fileSystem now event :: future = between ++ Item.fileSystem now' event' :: rest ∧
        path ∈ event'.affected ∧ ∀ later ∈ rest, ¬ later.Affects path := by
  induction future using List.reverseRecOn generalizing now event with
  | nil => exact ⟨[], now, event, [], rfl, hpath, by simp⟩
  | append_singleton future item ih =>
    by_cases hitem : item.Affects path
    · cases item with
      | fileSystem now' event' =>
        exact ⟨.fileSystem now event :: future, now', event', [], rfl, hitem, by simp⟩
      | deliver | send => cases hitem
    · obtain ⟨between, now', event', rest, hsplit, haffected, hlast⟩ := @ih now event hpath
      refine ⟨between, now', event', rest ++ [item], ?_, haffected, ?_⟩
      · rw [← List.cons_append, hsplit, List.append_assoc, List.cons_append]
      · intro later hlater
        rcases List.mem_append.mp hlater with hrest | hsame
        · exact hlast later hrest
        · rw [List.mem_singleton.mp hsame]
          exact hitem

/-- The notification for an event that is reported gets to the client if the queue has room
for it. -/
theorem mem_kept_run_iff (hitems : items = past ++ Item.fileSystem now event :: future)
    (hreports : reports (run project past) now event = true) :
    watcherEvent project (run project past).handled event ∈ (run project items).kept ↔
      FindsRoom project (onEvent project (run project past) now event)
        (run project past).posted.length future := by
  rw [hitems, run_append, runFrom_cons]
  change _ ∈ (runFrom project (onEvent project (run project past) now event) future).kept ↔ _
  have hposted : (onEvent project (run project past) now event).posted =
      (run project past).posted ++ watcherEvent project (run project past).handled event :: [] := by
    simp [onEvent, hreports]
  apply mem_kept_iff_findsRoom hposted
  · intro hmem
    have hkept : watcherEvent project (run project past).handled event ∈
        (run project past).kept := by
      simpa [onEvent, hreports, State.kept] using hmem
    have hlt := serial_lt_of_mem_kept hkept
    rw [serial_watcherEvent] at hlt
    exact lt_irrefl _ hlt
  · rw [serial_watcherEvent, handled_onEvent]
    exact Nat.lt_succ_self _

/-! ## The main result -/

/-- Each change of a path that is not ignored is noticed if and only if the last change of
each such path is reported. -/
theorem covered_iff_lastReported (project : List String) (items : List Item) :
    Covered project items ↔ LastReported project items := by
  apply Iff.intro
  · intro hcovered past now event future path hitems hpath hignore hlast
    obtain ⟨notification, hkept, hserial, hnames⟩ :=
      hcovered past now event future path hitems hpath hignore
    obtain ⟨past', now', event', future', hitems', hreports, rfl⟩ := origin_of_mem_kept hkept
    rw [serial_watcherEvent] at hserial
    have hpath' := names_watcherEvent.mp hnames
    rcases same_or_later hitems hitems' hserial with ⟨rfl, rfl, rfl⟩ | hlater
    · exact ⟨hreports, (mem_kept_run_iff hitems hreports).mp hkept⟩
    · exact absurd hpath' (hlast _ hlater)
  · intro hreported past now event future path hitems hpath hignore
    obtain ⟨between, now', event', rest, hsplit, hpath', hlast⟩ :=
      @exists_last_event path now event hpath future
    have hitems' : items = (past ++ between) ++ Item.fileSystem now' event' :: rest := by
      rw [hitems, hsplit, List.append_assoc]
    obtain ⟨hreports, hroom⟩ :=
      hreported (past ++ between) now' event' rest path hitems' hpath' hignore hlast
    refine ⟨_, (mem_kept_run_iff hitems' hreports).mpr hroom, ?_, names_watcherEvent.mpr hpath'⟩
    rw [serial_watcherEvent, run_append]
    exact handled_le_runFrom

/-- An editor writes `orders.sql` beside the model and renames it onto it. -/
def savedByRename : List Item :=
  [.fileSystem 0 (.changed .modified ["data", "shop", "orders.sql.tmp"] false),
    .fileSystem 5000 (.moved ["data", "shop", "orders.sql.tmp"] ["data", "shop", "orders.sql"] false),
    .deliver, .send]

/-- A file that is renamed from an ignored name is not noticed. -/
theorem not_covered_of_rename :
    ¬ ∀ (project : List String) (items : List Item), Covered project items := by
  intro hclaim
  obtain ⟨notification, hkept, -⟩ := hclaim ["data", "shop"] savedByRename
    (savedByRename.take 1) 5000 _ (savedByRename.drop 2) ["data", "shop", "orders.sql"] rfl
    (by decide) (by decide)
  have hnone : (run ["data", "shop"] savedByRename).kept = [] := by decide
  rw [hnone] at hkept
  cases hkept

end DbtCraft.Services.FileWatcher

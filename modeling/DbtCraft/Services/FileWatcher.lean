/-
# The file watcher

`app/services/file_watcher.py`: the handler of one project, which watchdog calls with the
events below the project directory, and one client that is connected to it. What the
handler broadcasts is delivered by the event loop, later and in this order, to the bounded
queue of the client. Times are in microseconds.
-/

import DbtCraft.Python.Dict
import DbtCraft.Python.Path
import Mathlib.Data.Int.Notation

namespace DbtCraft.Services.FileWatcher

open DbtCraft.Python

/-! ## Events -/

/-- What `on_created`, `on_modified` and `on_deleted` are called for. -/
inductive Kind
  | created
  | modified
  | deleted
  deriving DecidableEq

def Kind.text : Kind → String
  | .created => "created"
  | .modified => "modified"
  | .deleted => "deleted"

/-- A `FileSystemEvent`. Its paths are absolute, and given by their components. -/
inductive FileSystemEvent
  | changed (kind : Kind) (srcPath : List String) (isDirectory : Bool)
  | moved (srcPath destPath : List String) (isDirectory : Bool)
  deriving DecidableEq

/-- `Path(path)` of an absolute path. -/
def pathOf (parts : List String) : Path := ⟨true, parts⟩

namespace FileSystemEvent

def srcPath : FileSystemEvent → List String
  | .changed _ srcPath _ | .moved srcPath _ _ => srcPath

def isDirectory : FileSystemEvent → Bool
  | .changed _ _ isDirectory | .moved _ _ isDirectory => isDirectory

/-- The paths whose content an event changes. -/
def affected : FileSystemEvent → List (List String)
  | .changed _ srcPath _ => [srcPath]
  | .moved srcPath destPath _ => [srcPath, destPath]

/-- The key of an event in `recent_events`. -/
def eventKey : FileSystemEvent → String
  | .changed kind srcPath _ => kind.text ++ ":" ++ (pathOf srcPath).str
  | .moved srcPath destPath _ => "moved:" ++ (pathOf srcPath).str ++ ":" ++ (pathOf destPath).str

end FileSystemEvent

/-- `FileWatcherEvent`; `serial` tells the objects apart, in the order of the events that
they are made for. -/
structure FileWatcherEvent where
  eventType : String
  path : Path
  newPath : Option Path
  serial : ℕ
  deriving DecidableEq

/-! ## The handler -/

/-- `IGNORE_DIRS`. -/
def ignoreDirs : List String :=
  [".git", "__pycache__", ".pytest_cache", "node_modules", ".venv", "venv", "dbt_packages",
    "target", "logs", ".DS_Store"]

/-- `IGNORE_EXTENSIONS`. -/
def ignoreExtensions : List String := [".pyc", ".pyo", ".swp", ".swo", ".swn", ".tmp", ".lock"]

/-- `_should_ignore`. -/
def shouldIgnore (parts : List String) : Bool :=
  let path := pathOf parts
  let suffix := path.stemSuffix.2
  path.parts.any (· ∈ ignoreDirs) || suffix ∈ ignoreExtensions ||
    (startsWith path.name "." && suffix ∉ [".gitignore", ".env", ".editorconfig"])

example : shouldIgnore ["data", "shop", "models", "orders.sql.tmp"] = true := by decide

example : shouldIgnore ["data", "shop", "models", "orders.sql"] = false := by decide

/-- `_is_debounced`, as far as it answers. -/
def isDebounced (recentEvents : Dict String ℤ) (eventKey : String) (now : ℤ) : Bool :=
  match recentEvents.get eventKey with
  | some lastTime => now - lastTime < 100000
  | none => false

/-- `_is_debounced`, as far as it remembers an event that is not; entries older than a
second are cleaned. -/
def remember (recentEvents : Dict String ℤ) (eventKey : String) (now : ℤ) : Dict String ℤ :=
  (recentEvents.set eventKey now).filter fun item => now - 1000000 < item.2

/-- `_get_relative_path`. -/
def getRelativePath (project parts : List String) : Path :=
  ((pathOf parts).relativeTo (pathOf project)).getD (pathOf parts)

/-- What is broadcast for an event. -/
def watcherEvent (project : List String) (serial : ℕ) : FileSystemEvent → FileWatcherEvent
  | .changed kind srcPath _ => ⟨kind.text, getRelativePath project srcPath, none, serial⟩
  | .moved srcPath destPath _ =>
    ⟨"moved", getRelativePath project srcPath, some (getRelativePath project destPath), serial⟩

/-! ## The watcher and a client -/

/-- The `maxsize` of the queue of a client. -/
def queueLimit : ℕ := 100

structure State where
  recentEvents : Dict String ℤ := []
  /-- How many events the handler has been called for. -/
  handled : ℕ := 0
  /-- What `run_coroutine_threadsafe` has been given and the loop has not run. -/
  posted : List FileWatcherEvent := []
  queue : List FileWatcherEvent := []
  /-- What the client has been sent. -/
  received : List FileWatcherEvent := []

inductive Item
  | /-- watchdog calls the handler. -/
    fileSystem (now : ℤ) (event : FileSystemEvent)
  | /-- The loop runs the next `broadcast`. -/
    deliver
  | /-- `file_watcher_sse` sends the next event to the client. -/
    send

/-- The handler goes on behind its two guards. -/
def reports (state : State) (now : ℤ) (event : FileSystemEvent) : Bool :=
  !(event.isDirectory || shouldIgnore event.srcPath) &&
    !isDebounced state.recentEvents event.eventKey now

/-- `on_created`, `on_modified`, `on_deleted` and `on_moved`. -/
def onEvent (project : List String) (state : State) (now : ℤ) (event : FileSystemEvent) : State :=
  if reports state now event then
    { state with
      recentEvents := remember state.recentEvents event.eventKey now
      handled := state.handled + 1
      posted := state.posted ++ [watcherEvent project state.handled event] }
  else { state with handled := state.handled + 1 }

/-- One step of the watcher and the client. -/
def next (project : List String) (state : State) : Item → State
  | .fileSystem now event => onEvent project state now event
  | .deliver =>
    match state.posted with
    | [] => state
    | event :: rest =>
      -- `QueueFull` drops the event.
      if state.queue.length < queueLimit then
        { state with posted := rest, queue := state.queue ++ [event] }
      else { state with posted := rest }
  | .send =>
    match state.queue with
    | [] => state
    | event :: rest => { state with queue := rest, received := state.received ++ [event] }

def runFrom (project : List String) (state : State) (items : List Item) : State :=
  items.foldl (next project) state

/-- A project from the start of its watcher. -/
def run (project : List String) (items : List Item) : State := runFrom project {} items

/-- What the client has been sent, or will be. -/
def State.kept (state : State) : List FileWatcherEvent :=
  state.posted ++ state.queue ++ state.received

/-! ## The property -/

/-- A notification names a path. -/
def FileWatcherEvent.Names (project : List String) (notification : FileWatcherEvent)
    (path : List String) : Prop :=
  notification.path = getRelativePath project path ∨
    notification.newPath = some (getRelativePath project path)

/-- An item affects a path. -/
def Item.Affects : Item → List String → Prop
  | .fileSystem _ event, path => path ∈ event.affected
  | .deliver, _ | .send, _ => False

/-- For each event and each path it affects that is not ignored, the client gets a
notification for that path which is made for this event or for a later one. -/
def Covered (project : List String) (items : List Item) : Prop :=
  ∀ past now event future path, items = past ++ Item.fileSystem now event :: future →
    path ∈ event.affected → shouldIgnore path = false →
      ∃ notification ∈ (run project items).kept, (run project past).handled ≤ notification.serial ∧
        notification.Names project path

/-- The queue has room when the loop comes to a notification with some others before it. -/
def FindsRoom (project : List String) (state : State) (before : ℕ) : List Item → Prop
  | [] => True
  | .deliver :: rest =>
    match before with
    | 0 => state.queue.length < queueLimit
    | before + 1 => FindsRoom project (next project state .deliver) before rest
  | item :: rest => FindsRoom project (next project state item) before rest

/-- The last event that affects a path is that of a file whose source is not ignored, it
does not follow an event of its key within the debounce time, and the queue has room for
it. -/
def LastReported (project : List String) (items : List Item) : Prop :=
  ∀ past now event future path, items = past ++ Item.fileSystem now event :: future →
    path ∈ event.affected → shouldIgnore path = false →
      (∀ later ∈ future, ¬ later.Affects path) →
        reports (run project past) now event = true ∧
          FindsRoom project (onEvent project (run project past) now event)
            (run project past).posted.length future

end DbtCraft.Services.FileWatcher

/-
# The files of a saved state

Calls of `StateService.save` for one target, one after the other, at the grain of their
file-system steps, and readers that open `manifest.json` first and `run_results.json`
second. A call may end between any two steps, by an exception or by a crash; what a crash
leaves of a temporary file has a name that nobody opens. An open file keeps its content when
another one takes its place.
-/

import DbtCraft.Math.Machine
import Mathlib.Data.List.Basic
import Mathlib.Logic.Function.Basic

namespace DbtCraft.Services.StateFiles

open DbtCraft.Math

universe uι uβ

variable {ι : Type uι} {β : Type uβ}

/-! ## Calls, files and readers -/

/-- What the invocation that a call is made for has left in `target/`. -/
structure Artifacts (β : Type uβ) where
  manifest : Option (List β)
  runResults : Option (List β)

inductive Artifact
  | manifest
  | runResults
  deriving DecidableEq

def Artifacts.contentOf (artifacts : Artifacts β) : Artifact → Option (List β)
  | .manifest => artifacts.manifest
  | .runResults => artifacts.runResults

/-- A file in the directory of the target. Its content names the invocation it is of, which
is known by the number of the call that has copied it. -/
structure File (β : Type uβ) where
  invocation : ℕ
  content : List β
  deriving DecidableEq

/-- How far the call that is under way has come. -/
inductive Phase (β : Type uβ)
  | idle
  | /-- `manifest.is_file()` has answered. -/
    begun
  | /-- `_copy_atomic`, with what the temporary file has and what is left to copy. -/
    copying (artifact : Artifact) (written left : List β)
  | /-- Before `saved_run_results.unlink`. -/
    removing
  | /-- The run results are done. -/
    between
  deriving DecidableEq

inductive Reader (β : Type uβ)
  | idle
  | /-- It has opened `manifest.json`. -/
    opened (manifest : File β)
  | /-- It has looked for `run_results.json`. -/
    done (manifest : File β) (runResults : Option (File β))
  deriving DecidableEq

structure State (ι : Type uι) (β : Type uβ) where
  /-- The calls so far. -/
  calls : List (Artifacts β)
  phase : Phase β
  /-- `manifest.json` of the target. -/
  manifest : Option (File β)
  /-- `run_results.json` of the target. -/
  runResults : Option (File β)
  readers : ι → Reader β

inductive Event (ι : Type uι) (β : Type uβ)
  | /-- `save` is called. -/
    save (artifacts : Artifacts β)
  | /-- `run_results.is_file()`. -/
    test
  | /-- `shutil.copy2` copies some more. -/
    write (count : ℕ)
  | /-- `os.replace`. -/
    replace
  | unlink
  | /-- `_copy_atomic` of the manifest begins. -/
    copyManifest
  | /-- An exception, or a crash. -/
    stop
  | openManifest (reader : ι)
  | openRunResults (reader : ι)

variable [DecidableEq ι]

/-- One step of the calls or of a reader. -/
def step (state : State ι β) : Event ι β → Option (State ι β)
  | .save artifacts =>
    match state.phase with
    | .idle =>
      some { state with
        calls := state.calls ++ [artifacts]
        phase := if artifacts.manifest.isSome then .begun else .idle }
    | _ => none
  | .test =>
    match state.phase, state.calls.getLast? with
    | .begun, some artifacts =>
      match artifacts.runResults with
      | some content => some { state with phase := .copying .runResults [] content }
      | none => some { state with phase := .removing }
    | _, _ => none
  | .write count =>
    match state.phase with
    | .copying artifact written left =>
      some { state with
        phase := .copying artifact (written ++ left.take count) (left.drop count) }
    | _ => none
  | .replace =>
    match state.phase with
    | .copying .runResults written [] =>
      some { state with runResults := some ⟨state.calls.length - 1, written⟩, phase := .between }
    | .copying .manifest written [] =>
      some { state with manifest := some ⟨state.calls.length - 1, written⟩, phase := .idle }
    | _ => none
  | .unlink =>
    match state.phase with
    | .removing => some { state with runResults := none, phase := .between }
    | _ => none
  | .copyManifest =>
    match state.phase, state.calls.getLast? with
    | .between, some ⟨some content, _⟩ =>
      some { state with phase := .copying .manifest [] content }
    | _, _ => none
  | .stop => some { state with phase := .idle }
  | .openManifest reader =>
    match state.readers reader, state.manifest with
    | .idle, some manifest =>
      some { state with readers := Function.update state.readers reader (.opened manifest) }
    | _, _ => none
  | .openRunResults reader =>
    match state.readers reader with
    | .opened manifest =>
      some { state with
        readers := Function.update state.readers reader (.done manifest state.runResults) }
    | _ => none

/-- A target without saved state. -/
def machine : Machine (State ι β) (Event ι β) where
  init := {
    calls := []
    phase := .idle
    manifest := none
    runResults := none
    readers := fun _ => .idle }
  step := step

/-! ## The property -/

/-- A file is a complete copy of what its invocation has left. -/
def IsCopy (calls : List (Artifacts β)) (artifact : Artifact) (file : File β) : Prop :=
  calls[file.invocation]?.bind (·.contentOf artifact) = some file.content

omit [DecidableEq ι] in
/-- A manifest and the run results that are seen with it: each is complete, and the results
are not of an older invocation. -/
structure Agree (calls : List (Artifacts β)) (manifest : File β)
    (runResults : Option (File β)) : Prop where
  copied : IsCopy calls .manifest manifest
  complete : ∀ file, runResults = some file → IsCopy calls .runResults file
  newer : ∀ file, runResults = some file → manifest.invocation ≤ file.invocation

omit [DecidableEq ι] in
/-- What is in the directory agrees, and so does what any reader has seen. -/
structure Untorn (state : State ι β) : Prop where
  visible : ∀ manifest, state.manifest = some manifest →
    Agree state.calls manifest state.runResults
  read : ∀ reader manifest runResults, state.readers reader = .done manifest runResults →
    Agree state.calls manifest runResults

/-! ## The invariant -/

variable {calls : List (Artifacts β)} {artifact : Artifact} {file manifest : File β}
  {runResults : Option (File β)} {state next : State ι β} {event : Event ι β}
  {events : List (Event ι β)}

omit [DecidableEq ι] in
theorem IsCopy.append (hcopy : IsCopy calls artifact file) (more : List (Artifacts β)) :
    IsCopy (calls ++ more) artifact file := by
  unfold IsCopy at hcopy ⊢
  obtain ⟨artifacts, hcall, hcontent⟩ := Option.bind_eq_some_iff.mp hcopy
  rw [List.getElem?_append_left (List.getElem?_eq_some_iff.mp hcall).choose, hcall]
  exact hcontent

omit [DecidableEq ι] in
theorem IsCopy.lt (hcopy : IsCopy calls artifact file) : file.invocation < calls.length := by
  obtain ⟨artifacts, hcall, -⟩ := Option.bind_eq_some_iff.mp hcopy
  exact (List.getElem?_eq_some_iff.mp hcall).choose

omit [DecidableEq ι] in
/-- A file with the content of the last call is a copy of it. -/
theorem isCopy_last {artifacts : Artifacts β} {content : List β}
    (hlast : calls.getLast? = some artifacts)
    (hcontent : artifacts.contentOf artifact = some content) :
    IsCopy calls artifact ⟨calls.length - 1, content⟩ := by
  unfold IsCopy
  rw [← List.getLast?_eq_getElem?, hlast]
  exact hcontent

omit [DecidableEq ι] in
theorem Agree.append (hagree : Agree calls manifest runResults) (more : List (Artifacts β)) :
    Agree (calls ++ more) manifest runResults where
  copied := hagree.copied.append more
  complete file hfile := (hagree.complete file hfile).append more
  newer := hagree.newer

omit [DecidableEq ι] in
/-- With no run results a complete manifest agrees. -/
theorem Agree.none (hmanifest : IsCopy calls .manifest manifest) : Agree calls manifest none where
  copied := hmanifest
  complete _ hfile := by cases hfile
  newer _ hfile := by cases hfile

omit [DecidableEq ι] in
/-- Run results of the last call agree with every complete manifest. -/
theorem Agree.last (hmanifest : IsCopy calls .manifest manifest)
    (hfile : IsCopy calls .runResults file) (hinvocation : file.invocation = calls.length - 1) :
    Agree calls manifest (some file) where
  copied := hmanifest
  complete _ hsame := by cases hsame; exact hfile
  newer _ hsame := by
    cases hsame
    rw [hinvocation]
    exact Nat.le_sub_one_of_lt hmanifest.lt

omit [DecidableEq ι] in
/-- Beyond what is seen: a manifest that a reader has open agrees with the run results that
it will find, the temporary file goes on to a copy, and before its manifest is replaced a
call has seen to the run results. -/
structure Ordered (state : State ι β) : Prop extends Untorn state where
  opened : ∀ reader manifest, state.readers reader = .opened manifest →
    Agree state.calls manifest state.runResults
  complete : ∀ file, state.runResults = some file → IsCopy state.calls .runResults file
  copying : ∀ artifact written left, state.phase = .copying artifact written left →
    ∃ artifacts, state.calls.getLast? = some artifacts ∧
      artifacts.contentOf artifact = some (written ++ left)
  fresh : (state.phase = .between ∨ ∃ written left, state.phase = .copying .manifest written left) →
    ∀ file, state.runResults = some file → file.invocation = state.calls.length - 1

theorem ordered_init : Ordered (machine (ι := ι) (β := β)).init where
  visible _ hmanifest := by cases hmanifest
  read _ _ _ hreader := by cases hreader
  opened _ _ hreader := by cases hreader
  complete _ hfile := by cases hfile
  copying _ _ _ hphase := by cases hphase
  fresh _ _ hfile := by cases hfile

omit [DecidableEq ι] in
theorem Ordered.goOn {phase : Phase β} (hordered : Ordered state)
    (hcopying : ∀ artifact written left, phase = .copying artifact written left →
      ∃ artifacts, state.calls.getLast? = some artifacts ∧
        artifacts.contentOf artifact = some (written ++ left))
    (hfresh : (phase = .between ∨ ∃ written left, phase = .copying .manifest written left) →
      ∀ file, state.runResults = some file → file.invocation = state.calls.length - 1) :
    Ordered { state with phase := phase } :=
  { hordered with copying := hcopying, fresh := hfresh }

omit [DecidableEq ι] in
/-- Run results are replaced or removed, and the call goes on to its manifest. -/
theorem Ordered.putRunResults (hordered : Ordered state)
    (hcomplete : ∀ file, runResults = some file → IsCopy state.calls .runResults file ∧
      file.invocation = state.calls.length - 1) :
    Ordered { state with runResults := runResults, phase := .between } := by
  have hagree : ∀ manifest, IsCopy state.calls .manifest manifest →
      Agree state.calls manifest runResults := by
    intro manifest hmanifest
    cases runResults with
    | none => exact .none hmanifest
    | some file => exact .last hmanifest (hcomplete file rfl).1 (hcomplete file rfl).2
  exact {
    visible := fun manifest hmanifest => hagree manifest (hordered.visible manifest hmanifest).copied
    read := hordered.read
    opened := fun reader manifest hreader =>
      hagree manifest (hordered.opened reader manifest hreader).copied
    complete := fun file hfile => (hcomplete file hfile).1
    copying := fun _ _ _ hphase => by cases hphase
    fresh := fun _ file hfile => (hcomplete file hfile).2 }

omit [DecidableEq ι] in
/-- The manifest of a call whose run results are done is replaced. -/
theorem Ordered.putManifest {content : List β} (hordered : Ordered state)
    (hcopy : IsCopy state.calls .manifest ⟨state.calls.length - 1, content⟩)
    (hfresh : ∀ file, state.runResults = some file → file.invocation = state.calls.length - 1) :
    Ordered { state with manifest := some ⟨state.calls.length - 1, content⟩, phase := .idle } where
  visible manifest hmanifest := by
    cases hmanifest
    exact {
      copied := hcopy
      complete := hordered.complete
      newer := fun file hfile => Nat.le_of_eq (hfresh file hfile).symm }
  read := hordered.read
  opened := hordered.opened
  complete := hordered.complete
  copying _ _ _ hphase := by cases hphase
  fresh hphase := by rcases hphase with hphase | ⟨_, _, hphase⟩ <;> cases hphase

theorem Ordered.setReader {reader : ι} {reading : Reader β} (hordered : Ordered state)
    (hread : ∀ manifest runResults, reading = .done manifest runResults →
      Agree state.calls manifest runResults)
    (hopened : ∀ manifest, reading = .opened manifest →
      Agree state.calls manifest state.runResults) :
    Ordered { state with readers := Function.update state.readers reader reading } :=
  { hordered with
    read := fun other manifest runResults hother => by
      by_cases hsame : other = reader
      · subst hsame
        exact hread manifest runResults (by simpa using hother)
      · exact hordered.read other manifest runResults (by simpa [hsame] using hother)
    opened := fun other manifest hother => by
      by_cases hsame : other = reader
      · subst hsame
        exact hopened manifest (by simpa using hother)
      · exact hordered.opened other manifest (by simpa [hsame] using hother) }

theorem ordered_step (hordered : Ordered state) (hstep : step state event = some next) :
    Ordered next := by
  cases event with
  | save artifacts =>
    simp only [step] at hstep
    split at hstep <;> cases hstep
    have hphase : ∀ phase : Phase β,
        (if artifacts.manifest.isSome then Phase.begun else .idle) = phase →
          phase = .begun ∨ phase = .idle := by
      rintro phase rfl
      split
      · exact .inl rfl
      · exact .inr rfl
    exact {
      visible := fun manifest hmanifest => (hordered.visible manifest hmanifest).append _
      read := fun reader manifest runResults hreader =>
        (hordered.read reader manifest runResults hreader).append _
      opened := fun reader manifest hreader => (hordered.opened reader manifest hreader).append _
      complete := fun file hfile => (hordered.complete file hfile).append _
      copying := fun artifact written left hcopying => by
        rcases hphase _ hcopying with hsame | hsame <;> cases hsame
      fresh := fun hbetween => by
        rcases hbetween with hbetween | ⟨written, left, hbetween⟩ <;>
          rcases hphase _ hbetween with hsame | hsame <;> cases hsame }
  | test =>
    simp only [step] at hstep
    split at hstep
    next artifacts hphase hlast =>
      split at hstep
      next content hcontent =>
        cases hstep
        refine hordered.goOn ?_ ?_
        · rintro artifact written left hsame
          cases hsame
          exact ⟨artifacts, hlast, hcontent⟩
        · rintro (hsame | ⟨written, left, hsame⟩) <;> cases hsame
      · cases hstep
        refine hordered.goOn ?_ ?_
        · rintro artifact written left hsame
          cases hsame
        · rintro (hsame | ⟨written, left, hsame⟩) <;> cases hsame
    · cases hstep
  | write count =>
    simp only [step] at hstep
    split at hstep <;> cases hstep
    next artifact written left hphase =>
      refine hordered.goOn ?_ ?_
      · rintro artifact' written' left' hsame
        cases hsame
        rw [List.append_assoc, List.take_append_drop]
        exact hordered.copying artifact written left hphase
      · rintro (hsame | ⟨written', left', hsame⟩) <;> cases hsame
        exact hordered.fresh (.inr ⟨written, left, hphase⟩)
  | replace =>
    simp only [step] at hstep
    split at hstep
    next written hphase =>
      cases hstep
      obtain ⟨artifacts, hlast, hcontent⟩ := hordered.copying _ _ _ hphase
      rw [List.append_nil] at hcontent
      apply hordered.putRunResults
      rintro file hfile
      cases hfile
      exact ⟨isCopy_last hlast hcontent, rfl⟩
    next written hphase =>
      cases hstep
      obtain ⟨artifacts, hlast, hcontent⟩ := hordered.copying _ _ _ hphase
      rw [List.append_nil] at hcontent
      exact hordered.putManifest (isCopy_last hlast hcontent)
        (hordered.fresh (.inr ⟨written, [], hphase⟩))
    · cases hstep
  | unlink =>
    simp only [step] at hstep
    split at hstep <;> cases hstep
    exact hordered.putRunResults fun file hfile => by cases hfile
  | copyManifest =>
    simp only [step] at hstep
    split at hstep
    next content runResults hphase hlast =>
      cases hstep
      refine hordered.goOn ?_ fun _ => hordered.fresh (.inl hphase)
      rintro artifact written left hsame
      cases hsame
      exact ⟨_, hlast, rfl⟩
    · cases hstep
  | stop =>
    cases hstep
    refine hordered.goOn ?_ ?_
    · rintro artifact written left hsame
      cases hsame
    · rintro (hsame | ⟨written, left, hsame⟩) <;> cases hsame
  | openManifest reader =>
    simp only [step] at hstep
    split at hstep
    next manifest hreader hmanifest =>
      cases hstep
      apply hordered.setReader
      · intro found runResults hfound
        cases hfound
      · intro found hfound
        cases hfound
        exact hordered.visible manifest hmanifest
    · cases hstep
  | openRunResults reader =>
    simp only [step] at hstep
    split at hstep
    next manifest hreader =>
      cases hstep
      apply hordered.setReader
      · intro found runResults hfound
        cases hfound
        exact hordered.opened reader manifest hreader
      · intro found hfound
        cases hfound
    · cases hstep

/-! ## The main result -/

/-- Whatever steps the calls and the readers take and wherever a call ends, what is seen of
a target agrees. -/
theorem untorn_of_path (hpath : (machine (ι := ι) (β := β)).Path Machine.anyStep events state) :
    Untorn state := by
  have hordered := hpath.invariant ordered_init fun hsource _ hstep => ordered_step hsource hstep
  exact hordered.toUntorn

/-- A call that is overtaken by a reader, and a second one, without run results, that ends
in a crash. -/
def savedTwice : List (Event Unit Bool) :=
  [.save ⟨some [true, true], some [false]⟩, .test, .write 1, .replace, .copyManifest, .write 2,
    .replace, .openManifest (), .save ⟨some [true], none⟩, .test, .openRunResults (), .unlink,
    .copyManifest, .stop]

/-- The reader has seen both files of the first call. -/
theorem untorn_of_savedTwice :
    ∃ state, (machine (ι := Unit) (β := Bool)).Path Machine.anyStep savedTwice state ∧
      state.readers () = .done ⟨0, [true, true]⟩ (some ⟨0, [false]⟩) ∧ Untorn state := by
  obtain ⟨state, hrun, hreader⟩ : ∃ state, (machine (ι := Unit) (β := Bool)).runFrom
      machine.init savedTwice = some state ∧
        state.readers () = .done ⟨0, [true, true]⟩ (some ⟨0, [false]⟩) := ⟨_, rfl, rfl⟩
  have hpath := Machine.path_of_runFrom hrun
  exact ⟨state, hpath, hreader, untorn_of_path hpath⟩

end DbtCraft.Services.StateFiles

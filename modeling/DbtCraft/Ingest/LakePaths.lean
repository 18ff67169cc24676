/-
# Data paths of external lakes

`validate_data_path` of `ingest/lakehouse.py`. What looks like a URL passes unread. Any
other path has to resolve under a configured root and not inside the own lake directory;
nothing keeps it from lying above that directory.
-/

import DbtCraft.Python.Disk

namespace DbtCraft.Ingest.Lakehouse

open DbtCraft.Python

/-! ## Places -/

/-- A path that is compared: its root, and its parts without dots. -/
structure Place where
  root : String
  parts : List String
  deriving DecidableEq

namespace Place

/-- `inner == outer or outer in inner.parents`. -/
def Under (outer inner : Place) : Prop := outer.root = inner.root ∧ outer.parts <+: inner.parts

instance (outer inner : Place) : Decidable (outer.Under inner) := inferInstanceAs (Decidable (_ ∧ _))

/-- `str(place)`. -/
def str (place : Place) : String :=
  let text := place.root ++ String.intercalate "/" place.parts
  if text = "" then "." else text

end Place

/-- The slashes that `posixpath.normpath` leaves at the start. -/
def initialSlashes (text : String) : String :=
  if startsWith text "//" && !startsWith text "///" then "//"
  else if startsWith text "/" then "/" else ""

/-- A component comes after others. -/
def pushComponent (rooted : Bool) (found : List String) (component : String) : List String :=
  if component = "" ∨ component = "." then found
  else if component ≠ ".." ∨ (rooted = false ∧ found = []) ∨ found.getLast? = some ".." then
    found ++ [component]
  else found.dropLast

/-- `PurePosixPath(posixpath.normpath(text))`. -/
def normalPlace (text : String) : Place where
  root := initialSlashes text
  parts := ((Path.components text.toList).map String.ofList).foldl
    (pushComponent (startsWith text "/")) []

/-- What the check asks of `os` and `pathlib`. -/
structure Platform where
  /-- `os.name == "nt"`. -/
  windows : Bool
  /-- `Path(text).resolve()` and its `str`. -/
  resolve : String → Except Raised (Place × String)
  /-- `str(Path(storage_dir) / "lake")`. -/
  lakeIn : String → String

namespace Platform

/-- A platform with POSIX paths. -/
def posix (disk : Disk) : Platform where
  windows := false
  resolve text :=
    if text.toList.contains '\x00' then .error (.valueError "embedded null byte")
    else
      match disk.resolve (Path.ofString text) with
      | none => .error .runtimeError
      | some location => .ok (⟨"/", location⟩, (Place.mk "/" location).str)
  lakeIn storageDir := ((Path.ofString storageDir).child "lake").str

variable (platform : Platform)

/-- The path is read as a POSIX path on Windows. -/
def slashRooted (candidate : String) : Bool := platform.windows && startsWith candidate "/"

/-- Where a path leads, and the text of that place. -/
def read (slash : Bool) (text : String) : Except Raised (Place × String) :=
  if slash then .ok (normalPlace text, (normalPlace text).str) else platform.resolve text

end Platform

/-! ## The check -/

/-- The settings that the check reads. -/
structure LakeSettings where
  lakeDataDir : String
  storageDir : String
  lakeExternalDataRoots : String

/-- `configured_own`. -/
def configuredOwn (platform : Platform) (settings : LakeSettings) : String :=
  if settings.lakeDataDir = "" then platform.lakeIn settings.storageDir else settings.lakeDataDir

/-- `roots`. -/
def externalRoots (settings : LakeSettings) : List String :=
  ((split ',' settings.lakeExternalDataRoots.toList).map fun root =>
    strip (String.ofList root)).filter (· ≠ "")

/-- A character of a scheme; without regard to case these are more than those of ASCII. -/
def isSchemeChar (c : Char) : Bool :=
  c.isAlphanum || c = '+' || c = '.' || c = '-' ||
    c.toNat = 0x130 || c.toNat = 0x131 || c.toNat = 0x17F || c.toNat = 0x212A

/-- `_is_object_storage`. -/
def isObjectStorage (path : String) : Bool :=
  let scheme := path.toList.takeWhile isSchemeChar
  scheme ≠ [] && [':', '/', '/'].isPrefixOf (path.toList.dropWhile isSchemeChar)

/-- The loop over the roots. -/
def underRoot (platform : Platform) (slash : Bool) (resolved : Place) :
    List String → Except Raised Bool
  | [] => .ok false
  | root :: rest => do
    let allowed ← platform.read slash root
    if allowed.1.Under resolved then return true
    underRoot platform slash resolved rest

/-- `validate_data_path`. -/
def validateDataPath (platform : Platform) (settings : LakeSettings) (path : String) :
    Except Raised String :=
  let candidate := strip path
  if candidate = "" then .error (.lakehouse "a lakehouse data path is required")
  else if isObjectStorage candidate then .ok candidate
  else do
    let slash := platform.slashRooted candidate
    let resolved ← platform.read slash candidate
    let own ← platform.read slash (configuredOwn platform settings)
    if own.1.Under resolved.1 then
      .error (.lakehouse ("'" ++ path ++ "' is inside this deployment's own lake directory. That " ++
        "space belongs to lakehouses created here - point an external lakehouse at its own storage."))
    else if externalRoots settings = [] then
      .error (.lakehouse ("'" ++ path ++ "' is a local path, and no external lakehouse roots are " ++
        "configured. Set LAKE_EXTERNAL_DATA_ROOTS to the mount points an external lakehouse may " ++
        "use, or give an object-storage URL."))
    else do
      let found ← underRoot platform slash resolved.1 (externalRoots settings)
      if found then return resolved.2
      .error (.lakehouse ("'" ++ path ++ "' is not under any configured external lakehouse root (" ++
        String.intercalate ", " (externalRoots settings) ++ ")"))

/-! ## Local places -/

/-- Where the URLs of data paths lead. -/
structure Schemes where
  /-- The local path that a URL stands for. -/
  localTarget : String → Option String
  localTarget_file : ∀ path, localTarget ("file:///" ++ path) = some ("/" ++ path)

/-- The local path that a data path stands for. -/
def localPath (schemes : Schemes) (path : String) : Option String :=
  if isObjectStorage (strip path) then schemes.localTarget (strip path) else some (strip path)

/-- A local path lies under a configured root, and neither in nor above the own lake
directory. -/
def Apart (platform : Platform) (settings : LakeSettings) (path : String) : Prop :=
  ∀ place, platform.read (platform.slashRooted path) path = .ok place →
    (∃ root ∈ externalRoots settings, ∃ allowed,
      platform.read (platform.slashRooted path) root = .ok allowed ∧ allowed.1.Under place.1) ∧
    ∀ own, platform.read (platform.slashRooted path) (configuredOwn platform settings) = .ok own →
      ¬ own.1.Under place.1 ∧ ¬ place.1.Under own.1

/-- Every local place that the check accepts is apart from managed storage. -/
def Fenced (platform : Platform) (schemes : Schemes) (settings : LakeSettings) (path : String) :
    Prop :=
  ∀ text, validateDataPath platform settings path = .ok text → ∀ target,
    localPath schemes path = some target → Apart platform settings target

/-- The loop comes to a root that a place lies under. -/
def Admitted (platform : Platform) (slash : Bool) (roots : List String) (place : Place) : Prop :=
  ∃ before root after, roots = before ++ root :: after ∧
    (∀ other ∈ before, ∃ found, platform.read slash other = .ok found) ∧
    ∃ allowed, platform.read slash root = .ok allowed ∧ allowed.1.Under place

variable {platform : Platform} {schemes : Schemes} {settings : LakeSettings} {slash : Bool}
  {place : Place} {path : String}

theorem admitted_cons_of_under {root : String} {rest : List String} {allowed : Place × String}
    (hroot : platform.read slash root = .ok allowed) (hunder : allowed.1.Under place) :
    Admitted platform slash (root :: rest) place := by
  refine ⟨[], root, rest, rfl, ?_, allowed, hroot, hunder⟩
  intro other hother
  cases hother

theorem admitted_cons {root : String} {rest : List String} {allowed : Place × String}
    (hroot : platform.read slash root = .ok allowed) (hunder : ¬ allowed.1.Under place) :
    Admitted platform slash (root :: rest) place ↔ Admitted platform slash rest place := by
  constructor
  · intro hadmitted
    obtain ⟨before, other, after, hroots, hbefore, found, hfound, hplace⟩ := hadmitted
    cases before with
    | nil =>
      obtain ⟨hsame, -⟩ := List.cons.inj hroots
      rw [← hsame, hroot] at hfound
      exact absurd (Except.ok.inj hfound ▸ hplace) hunder
    | cons first before =>
      obtain ⟨-, hrest⟩ := List.cons.inj hroots
      exact ⟨before, other, after, hrest, fun item hitem =>
        hbefore item (List.mem_cons_of_mem _ hitem), found, hfound, hplace⟩
  · intro hadmitted
    obtain ⟨before, other, after, hroots, hbefore, hplace⟩ := hadmitted
    refine ⟨root :: before, other, after, by rw [hroots]; rfl, ?_, hplace⟩
    intro item hitem
    rcases List.mem_cons.mp hitem with hfirst | hlater
    · exact ⟨allowed, hfirst ▸ hroot⟩
    · exact hbefore item hlater

theorem underRoot_eq_true (roots : List String) :
    underRoot platform slash place roots = .ok true ↔ Admitted platform slash roots place := by
  induction roots with
  | nil =>
    constructor
    · intro hfound
      cases hfound
    · intro hadmitted
      obtain ⟨before, root, after, hroots, -⟩ := hadmitted
      cases before <;> cases hroots
  | cons root rest ih =>
    unfold underRoot
    rw [bind_eq_ok]
    constructor
    · intro hfound
      obtain ⟨allowed, hroot, hrest⟩ := hfound
      by_cases hunder : allowed.1.Under place
      · exact admitted_cons_of_under hroot hunder
      · rw [if_neg hunder] at hrest
        exact (admitted_cons hroot hunder).mpr (ih.mp hrest)
    · intro hadmitted
      cases hroot : platform.read slash root with
      | error raised =>
        exfalso
        obtain ⟨before, other, after, hroots, hbefore, found, hfound, -⟩ := hadmitted
        cases before with
        | nil =>
          rw [← (List.cons.inj hroots).1, hroot] at hfound
          cases hfound
        | cons first before =>
          obtain ⟨item, hitem⟩ := hbefore first List.mem_cons_self
          rw [← (List.cons.inj hroots).1, hroot] at hitem
          cases hitem
      | ok allowed =>
        refine ⟨allowed, rfl, ?_⟩
        by_cases hunder : allowed.1.Under place
        · rw [if_pos hunder]
          rfl
        · rw [if_neg hunder]
          exact ih.mpr ((admitted_cons hroot hunder).mp hadmitted)

/-- What the check accepts of the paths that do not look like URLs. -/
theorem validateDataPath_eq_ok (hpath : strip path ≠ "") (hlocal : isObjectStorage (strip path) = false)
    {text : String} :
    validateDataPath platform settings path = .ok text ↔
      ∃ place own, platform.read (platform.slashRooted (strip path)) (strip path) = .ok (place, text) ∧
        platform.read (platform.slashRooted (strip path)) (configuredOwn platform settings) = .ok own ∧
        ¬ own.1.Under place ∧
        Admitted platform (platform.slashRooted (strip path)) (externalRoots settings) place := by
  unfold validateDataPath
  simp only [if_neg hpath, hlocal, Bool.false_eq_true, if_false]
  rw [bind_eq_ok]
  constructor
  · intro hresult
    obtain ⟨resolved, hresolved, hresult⟩ := hresult
    obtain ⟨own, hown, hresult⟩ := bind_eq_ok.mp hresult
    split_ifs at hresult with hinside hroots
    obtain ⟨found, hfound, hresult⟩ := bind_eq_ok.mp hresult
    cases found with
    | false => cases hresult
    | true =>
      have htext : resolved.2 = text := Except.ok.inj hresult
      exact ⟨resolved.1, own, htext ▸ hresolved, hown, hinside, (underRoot_eq_true _).mp hfound⟩
  · intro hresult
    obtain ⟨place, own, hplace, hown, hinside, hadmitted⟩ := hresult
    have hroots : externalRoots settings ≠ [] := by
      intro hnone
      obtain ⟨before, root, after, happend, -⟩ := hadmitted
      rw [hnone] at happend
      cases before <;> cases happend
    refine ⟨(place, text), hplace, bind_eq_ok.mpr ⟨own, hown, ?_⟩⟩
    rw [if_neg hinside, if_neg hroots]
    exact bind_eq_ok.mpr ⟨true, (underRoot_eq_true _).mpr hadmitted, rfl⟩

/-- A URL leads to no local path, or to one that is apart from managed storage; and no path
that a root admits lies strictly above the own lake directory. -/
def Fenceable (platform : Platform) (schemes : Schemes) (settings : LakeSettings) (path : String) :
    Prop :=
  strip path ≠ "" →
    (isObjectStorage (strip path) = true → ∀ target, schemes.localTarget (strip path) = some target →
      Apart platform settings target) ∧
    (isObjectStorage (strip path) = false → ∀ place own,
      platform.read (platform.slashRooted (strip path)) (strip path) = .ok place →
      platform.read (platform.slashRooted (strip path)) (configuredOwn platform settings) = .ok own →
      Admitted platform (platform.slashRooted (strip path)) (externalRoots settings) place.1 →
      place.1.Under own.1 → own.1.Under place.1)

/-- The check fences a path off exactly when there is nothing that it leaves unread. -/
theorem fenced_iff_fenceable (platform : Platform) (schemes : Schemes) (settings : LakeSettings)
    (path : String) :
    Fenced platform schemes settings path ↔ Fenceable platform schemes settings path := by
  constructor
  · intro hfenced hpath
    constructor
    · intro hurl target htarget
      have haccepted : validateDataPath platform settings path = .ok (strip path) := by
        simp only [validateDataPath, if_neg hpath, hurl, if_true]
      have hlocal : localPath schemes path = some target := by
        rw [localPath, if_pos hurl]
        exact htarget
      exact hfenced _ haccepted target hlocal
    · intro hurl place own hplace hown hadmitted habove
      by_contra hinside
      have haccepted := (validateDataPath_eq_ok hpath hurl).mpr
        ⟨place.1, own, hplace, hown, hinside, hadmitted⟩
      have hlocal : localPath schemes path = some (strip path) := by
        rw [localPath, hurl]
        rfl
      exact ((hfenced _ haccepted _ hlocal place hplace).2 own hown).2 habove
  · intro hfenceable text haccepted target hlocal
    have hpath : strip path ≠ "" := by
      intro hempty
      rw [validateDataPath, if_pos hempty] at haccepted
      cases haccepted
    obtain ⟨hurls, hlocals⟩ := hfenceable hpath
    unfold localPath at hlocal
    cases hurl : isObjectStorage (strip path) with
    | true =>
      rw [if_pos hurl] at hlocal
      exact hurls hurl target hlocal
    | false =>
      rw [hurl, if_neg Bool.false_ne_true] at hlocal
      rw [← Option.some_inj.mp hlocal]
      obtain ⟨place, own, hplace, hown, hinside, hadmitted⟩ :=
        (validateDataPath_eq_ok hpath hurl).mp haccepted
      intro other hother
      have hsame := Except.ok.inj (hother.symm.trans hplace)
      rw [hsame]
      constructor
      · obtain ⟨before, root, after, hroots, -, hallowed⟩ := hadmitted
        refine ⟨root, ?_, hallowed⟩
        rw [hroots]
        exact List.mem_append_right _ List.mem_cons_self
      · intro own' hown'
        rw [Except.ok.inj (hown'.symm.trans hown)]
        exact ⟨hinside, fun habove => hinside (hlocals hurl _ _ hplace hown hadmitted habove)⟩

/-- Schemes of which only `file` is local. -/
def fileScheme : Schemes where
  localTarget url :=
    match url.toList with
    | 'f' :: 'i' :: 'l' :: 'e' :: ':' :: '/' :: '/' :: '/' :: rest =>
      some ("/" ++ String.ofList rest)
    | _ => none
  localTarget_file path := by
    rw [String.toList_append]
    show some ("/" ++ String.ofList path.toList) = _
    rw [String.ofList_toList]

/-- A `file` URL reaches the files of a managed lake. -/
theorem not_fenced_of_file_url :
    ¬ ∀ platform schemes settings path, Fenced platform schemes settings path := by
  intro hclaim
  let platform := Platform.posix ⟨[], [], [], 0, ""⟩
  let settings : LakeSettings := ⟨"/data/storage/lake", "/data/storage", ""⟩
  have hapart := hclaim platform fileScheme settings "file:///data/storage/lake/4f1c"
    "file:///data/storage/lake/4f1c" (by decide +kernel) "/data/storage/lake/4f1c" (by decide +kernel)
  have hplace : platform.read (platform.slashRooted "/data/storage/lake/4f1c")
      "/data/storage/lake/4f1c" = .ok (⟨"/", ["data", "storage", "lake", "4f1c"]⟩,
        "/data/storage/lake/4f1c") := by decide +kernel
  have hown : platform.read (platform.slashRooted "/data/storage/lake/4f1c")
      (configuredOwn platform settings) = .ok (⟨"/", ["data", "storage", "lake"]⟩,
        "/data/storage/lake") := by decide +kernel
  exact ((hapart _ hplace).2 _ hown).1 (by decide)

end DbtCraft.Ingest.Lakehouse

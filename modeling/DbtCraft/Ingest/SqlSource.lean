/-
# SQL sources

`build_url` of `ingest/sql_source.py`: a connection as a URL of its driver. The user name, the
password and the database are quoted, the host is written as it is. SQLAlchemy unquotes the
user name and the password only.
-/

import DbtCraft.Ingest.CatalogUrl
import DbtCraft.Services.ConnectionTargets
import DbtCraft.Sql.EngineUrl

namespace DbtCraft.Ingest.SqlSource

open DbtCraft.Python DbtCraft.Python.Url DbtCraft.Sql.EngineUrl
open DbtCraft.Ingest.Lakehouse (isQuoted isQuoted_of_mem_quote length_le_length_quote
  quote_of_unreserved)
open DbtCraft.Services.ConnectionConfig (Config Config.value)
open DbtCraft.Services.ConnectionTargets (intOf)

/-! ## The builder -/

/-- What `build_url` is given. -/
structure Source where
  connType : String
  host : Text
  port : Value
  database : Text
  username : Text
  password : Text
  extra : Config

/-- `SOURCE_DRIVERS`. -/
def sourceDrivers : Dict String Text :=
  [("postgresql", "postgresql+psycopg2".toList), ("oracle", "oracle+oracledb".toList),
    ("mysql", "mysql+pymysql".toList)]

/-- `int(port or 0) or None`. -/
def portNumber (port : Value) : Except Raised (Option ℤ) :=
  if port.truthy then
    match intOf port with
    | .ok (some number) => .ok (if number = 0 then none else some number)
    | .ok none => .error (.valueError "invalid literal for int() with base 10")
    | .error raised => .error raised
  else .ok none

/-- The database, or the service of an Oracle connection; `quote` takes only text. -/
def databaseOf (source : Source) : Except Raised Text :=
  if source.connType = "oracle" then
    match (source.extra.value "service").orElse (.str (String.ofList source.database)) with
    | .str own => .ok own.toList
    | _ => .error .typeError
  else .ok source.database

/-- `credentials`. -/
def credentials (source : Source) : Text :=
  let user := quote source.username
  if user = [] then [] else user ++ ':' :: (quote source.password ++ ['@'])

variable (assertHostAllowed : Text → Option ℤ → Except Raised Unit)

/-- `build_url`; an `UnsupportedSource` is a `ValueError`. -/
def buildUrl (source : Source) : Except Raised Text :=
  match sourceDrivers.get source.connType with
  | none => .error (.valueError ("Connection type '" ++ source.connType ++
      "' cannot be used as an ingest source. Supported: mysql, oracle, postgresql"))
  | some driver => do
    let port ← portNumber source.port
    assertHostAllowed source.host port
    let database ← databaseOf source
    return driver ++ "://".toList ++ credentials source ++ source.host ++ portText port ++
      '/' :: quote database

/-! ## The round trip -/

/-- The URL is read as the connection it was built from. -/
def RoundTrip (makeUrl : Text → Option Components) (source : Source) (url : Text) : Prop :=
  ∃ port database, portNumber source.port = .ok port ∧ databaseOf source = .ok database ∧
    makeUrl url = some ⟨source.host, port, database, source.username, source.password⟩

/-- The host stands in a URL as it is, no database needs quoting, and without a user name
there is no password and no at sign in the host. -/
structure ReadsBack (source : Source) : Prop where
  host : IsHostName source.host
  anonymous : source.username = [] → '@' ∉ source.host ∧ source.password = []
  database : ∀ database, databaseOf source = .ok database → database.all isUnreserved = true

/-- How a connection is written. -/
def written (source : Source) (driver : Text) (port : Option ℤ) (database : Text) : Written where
  driver := driver
  credentials := if source.username = [] then none
    else some (quote source.username, quote source.password)
  host := source.host
  port := port
  database := quote database

variable {assertHostAllowed} {makeUrl : Text → Option Components} {source : Source}
  {driver database text url : Text} {port : Option ℤ}

theorem quote_eq_nil_iff : quote text = [] ↔ text = [] := by
  apply Iff.intro
  · intro hnil
    have hle := (length_le_length_quote text).1
    rw [hnil] at hle
    exact List.length_eq_zero_iff.mp (Nat.le_zero.mp hle)
  · rintro rfl
    rfl

/-- Nothing that ends a component is left in a quoted text. -/
theorem not_mem_quote {c : Char} (hc : isQuoted c = false) : c ∉ quote text := fun hmem =>
  Bool.false_ne_true (hc.symm.trans (isQuoted_of_mem_quote hmem))

theorem quote_eq_self_iff : quote text = text ↔ text.all isUnreserved = true :=
  ⟨fun hsame => (length_le_length_quote text).2 (congrArg List.length hsame), quote_of_unreserved⟩

/-- What is built is what is written. -/
theorem text_of_buildUrl (hbuild : buildUrl assertHostAllowed source = .ok url) :
    ∃ driver port database, (source.connType, driver) ∈ sourceDrivers ∧
      portNumber source.port = .ok port ∧ databaseOf source = .ok database ∧
      url = (written source driver port database).text := by
  unfold buildUrl at hbuild
  split at hbuild
  · cases hbuild
  next driver hdriver =>
    obtain ⟨port, hport, hbuild⟩ := bind_eq_ok.mp hbuild
    obtain ⟨-, -, hbuild⟩ := bind_eq_ok.mp hbuild
    obtain ⟨database, hdatabase, hbuild⟩ := bind_eq_ok.mp hbuild
    refine ⟨driver, port, database, Dict.mem_of_get hdriver, hport, hdatabase, ?_⟩
    cases hbuild
    by_cases huser : source.username = []
    · simp [written, Written.text, credentials, credentialsText, addressText, huser,
        quote_eq_nil_iff.mpr]
    · simp [written, Written.text, credentials, credentialsText, addressText, huser,
        quote_eq_nil_iff]

theorem plain_driver (hdriver : (source.connType, driver) ∈ sourceDrivers) :
    driver ≠ [] ∧ (∀ c ∈ driver, isDriverChar c = true) ∧ '[' ∉ driver := by
  have hall : ∀ entry ∈ sourceDrivers,
      entry.2 ≠ [] ∧ (∀ c ∈ entry.2, isDriverChar c = true) ∧ '[' ∉ entry.2 := by decide
  exact hall _ hdriver

theorem plain_written (hdriver : (source.connType, driver) ∈ sourceDrivers)
    (hhost : IsHostName source.host) (hat : source.username = [] → '@' ∉ source.host) :
    (written source driver port database).Plain where
  driver := ⟨(plain_driver hdriver).1, (plain_driver hdriver).2.1⟩
  credentials user password hcredentials := by
    simp only [written] at hcredentials
    split at hcredentials
    · cases hcredentials
    · cases hcredentials
      exact ⟨not_mem_quote (by decide), not_mem_quote (by decide), not_mem_quote (by decide),
        not_mem_quote (by decide)⟩
  anonymous hcredentials := by
    simp only [written] at hcredentials
    split at hcredentials
    next huser => exact ⟨hat huser, not_mem_quote (by decide)⟩
    · cases hcredentials
  host := hhost
  database := not_mem_quote (by decide)

/-- What a plain URL of a connection is read as. -/
theorem url_written (source : Source) (driver : Text) (port : Option ℤ) (database : Text) :
    (written source driver port database).url = ⟨source.host, port, quote database,
      source.username, if source.username = [] then [] else source.password⟩ := by
  by_cases huser : source.username = []
  · simp [Written.url, written, huser]
    rfl
  · simp [Written.url, written, huser]

/-- A letter that is never quoted and stands in no driver, port or separator is written
only in the host. -/
theorem count_text {c : Char} (hdriver : c ∉ driver) (hport : c ∉ portText port)
    (hquoted : isQuoted c = false) (hmark : c ≠ ':' ∧ c ≠ '/' ∧ c ≠ '@') :
    (written source driver port database).text.count c = source.host.count c := by
  have hcredentials : c ∉ credentialsText (written source driver port database).credentials := by
    by_cases huser : source.username = []
    · simp [written, credentialsText, huser]
    · simp [written, credentialsText, huser, hmark, not_mem_quote hquoted]
  have hcolon : ':' ≠ c := hmark.1.symm
  have hslash : '/' ≠ c := hmark.2.1.symm
  rw [Written.text, addressText]
  simp only [List.count_append, List.count_cons_of_ne hcolon, List.count_cons_of_ne hslash]
  rw [List.count_eq_zero_of_not_mem hcredentials]
  change driver.count c + (0 + (source.host.count c + ((portText port).count c +
    (quote database).count c))) = source.host.count c
  rw [List.count_eq_zero_of_not_mem hdriver, List.count_eq_zero_of_not_mem hport,
    List.count_eq_zero_of_not_mem (not_mem_quote hquoted)]
  omega

theorem not_mem_portText {c : Char} (hdigit : c.isDigit = false) (hc : c ≠ ':' ∧ c ≠ '-') :
    c ∉ portText port := by
  intro hmem
  cases port with
  | none => cases hmem
  | some port =>
    rcases List.mem_cons.mp hmem with hcolon | hmem
    · exact hc.1 hcolon
    · rcases mem_toString hmem with h | h
      · exact Bool.false_ne_true (hdigit.symm.trans h)
      · exact hc.2 h

/-! ## When connections are read back -/

/-- A host that is read back stands in the URL as it is: one between brackets would have
lost them. -/
theorem isHostName_of_readBack {read : Components} (hmake : ReadsUrls makeUrl)
    (hdriver : (source.connType, driver) ∈ sourceDrivers)
    (hread : makeUrl (written source driver port database).text = some read)
    (hhost : read.host = source.host) : IsHostName source.host := by
  rcases hmake.host _ read hread with hplain | hbracketed
  · rwa [hhost] at hplain
  · have hcount := hbracketed.sublist.count_le '['
    rw [hhost, count_text (plain_driver hdriver).2.2 (not_mem_portText (by decide) (by decide))
      (by decide) (by decide), List.count_cons_self, List.count_append] at hcount
    omega

/-- Without credentials, what stands before an at sign is not read as the host. -/
theorem not_mem_at_of_readBack {read : Components} (hmake : ReadsUrls makeUrl)
    (hdriver : (source.connType, driver) ∈ sourceDrivers)
    (hread : makeUrl (written source driver port database).text = some read)
    (hhost : read.host = source.host) (hplain : IsHostName source.host)
    (huser : source.username = []) : '@' ∉ source.host := by
  intro hmem
  obtain ⟨before, after, hsplit⟩ := List.append_of_mem hmem
  have hbefore : ∀ c ∈ before, isBareChar c = true := fun c hc =>
    hplain.bare c (by simp [hsplit, hc])
  have htext : (written source driver port database).text = driver ++ ':' :: '/' :: '/' ::
      (before ++ '@' :: (after ++ (portText port ++ '/' :: quote database))) := by
    simp [Written.text, written, huser, credentialsText, addressText, hsplit]
  rw [htext] at hread
  have hinfix := hmake.credentials driver before _ read (plain_driver hdriver).2.1
    (fun hc => by cases hbefore _ hc) (fun hc => by cases hbefore _ hc) hread
  have hcount := hinfix.sublist.count_le '@'
  have hport : '@' ∉ portText port := not_mem_portText (by decide) (by decide)
  have hdatabase : '@' ∉ quote database := not_mem_quote (by decide)
  rw [hhost, hsplit] at hcount
  simp only [List.count_append, List.count_cons_self, List.count_cons_of_ne (by decide : '/' ≠ '@'),
    List.count_eq_zero_of_not_mem hport, List.count_eq_zero_of_not_mem hdatabase] at hcount
  omega

/-- **A connection is read back from its URL** exactly when its host stands there as it is,
its database needs no quoting, and it has a user name, or else neither a password nor an at
sign in its host. -/
theorem roundTrip_iff_readsBack (hmake : ReadsUrls makeUrl)
    (hbuild : buildUrl assertHostAllowed source = .ok url) :
    RoundTrip makeUrl source url ↔ ReadsBack source := by
  obtain ⟨driver, port, database, hdriver, hport, hdatabase, rfl⟩ := text_of_buildUrl hbuild
  have hread : IsHostName source.host → (source.username = [] → '@' ∉ source.host) →
      makeUrl (written source driver port database).text = some ⟨source.host, port,
        quote database, source.username, if source.username = [] then [] else source.password⟩ :=
    fun hhost hat => by
      rw [hmake.written _ (plain_written hdriver hhost hat), url_written]
  apply Iff.intro
  · rintro ⟨samePort, sameDatabase, hsamePort, hsameDatabase, hback⟩
    cases hport.symm.trans hsamePort
    cases hdatabase.symm.trans hsameDatabase
    have hhost := isHostName_of_readBack hmake hdriver hback rfl
    have hat := not_mem_at_of_readBack hmake hdriver hback rfl hhost
    have hcomponents := Option.some.inj ((hread hhost hat).symm.trans hback)
    injection hcomponents with _ _ hquote _ hpassword
    exact {
      host := hhost
      anonymous := fun huser => ⟨hat huser, by simpa [huser] using hpassword.symm⟩
      database := fun other hother => by
        cases hdatabase.symm.trans hother
        exact quote_eq_self_iff.mp hquote }
  · intro hback
    refine ⟨port, database, hport, hdatabase, ?_⟩
    have hquote : quote database = database := quote_eq_self_iff.mpr (hback.database _ hdatabase)
    rw [hread hback.host fun huser => (hback.anonymous huser).1, hquote]
    by_cases huser : source.username = []
    · rw [if_pos huser, (hback.anonymous huser).2]
    · rw [if_neg huser]

/-- A connection as it is tested, with a password of letters that end components. -/
def connection (database : String) : Source where
  connType := "postgresql"
  host := "db.example.com".toList
  port := .int 5432
  database := database.toList
  username := "reader".toList
  password := "p@ss/w:rd?".toList
  extra := []

/-- A password with letters that end components is read back. -/
theorem roundTrip_of_password :
    ∃ url, buildUrl (fun _ _ => .ok ()) (connection "crm") = .ok url ∧
      RoundTrip readUrl (connection "crm") url := by
  have hhost : IsHostName (connection "crm").host := by
    refine ⟨by decide, fun inner rest _ hbracket => ?_⟩
    exact absurd (List.cons.inj hbracket).1 (by decide)
  have hreadsBack : ReadsBack (connection "crm") := {
    host := hhost
    anonymous := fun huser => absurd huser (by decide)
    database := fun database hdatabase => by
      cases hdatabase
      decide }
  have hbuild : buildUrl (fun _ _ => .ok ()) (connection "crm") = .ok _ := rfl
  exact ⟨_, hbuild, (roundTrip_iff_readsBack readsUrls_readUrl hbuild).mpr hreadsBack⟩

/-- A space in the name of a database is quoted, and the quoted name is read. -/
theorem not_roundTrip_of_space :
    ¬ ∀ makeUrl, ReadsUrls makeUrl → ∀ source url,
      buildUrl (fun _ _ => .ok ()) source = .ok url → RoundTrip makeUrl source url := by
  intro hclaim
  obtain ⟨port, database, hport, hdatabase, hread⟩ :=
    hclaim readUrl readsUrls_readUrl (connection "my db") _ rfl
  cases hport
  cases hdatabase
  revert hread
  decide +kernel

end DbtCraft.Ingest.SqlSource

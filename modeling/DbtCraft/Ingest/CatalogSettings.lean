/-
# What libpq is told of a catalog

The connection string of an external lake denotes the row, and nothing but the row,
exactly when no field has a character that some layer between them reads as its own.
-/

import Mathlib.Data.List.Nodup
import DbtCraft.Ingest.CatalogUrl

namespace DbtCraft.Ingest.Lakehouse

open DbtCraft.Python DbtCraft.Python.Url DbtCraft.Sql

/-! ## The connection string -/

namespace ExternalLake

variable (lake : ExternalLake)

/-- The database after `urlparse` has cut the query and the fragment off. -/
def cutDatabase : Text :=
  ((lake.database.filter isKept).takeWhile (· ≠ '#')).takeWhile (· ≠ '?')

/-- The connection string of a lake whose host stands in the URL as it is. -/
def text : Text :=
  option "dbname" (withoutSlashes lake.cutDatabase) ++
    ' ' :: (option "host" (Parsed.lowerHost lake.host) ++
    ' ' :: (option "port" lake.portText ++
    ' ' :: (option "user" (quote lake.username) ++ ' ' :: option "password" (quote lake.password))))

end ExternalLake

variable {tables : Tables} {guard : Text → Option ℕ → Except Raised Unit} {lake : ExternalLake}

theorem isHostChar_iff {c : Char} :
    isHostChar c = true ↔ isKept c = true ∧ endsNetloc c = false ∧ c ≠ '@' ∧ c ≠ ':' ∧ c ≠ '[' ∧
      c ≠ ']' := by
  simp only [isHostChar, Bool.and_eq_true, Bool.not_eq_true', decide_eq_true_eq, and_assoc]

theorem mem_host (hhost : lake.host.all isHostChar = true) {c : Char} (hc : c ∈ lake.host) :
    isKept c = true ∧ endsNetloc c = false ∧ c ≠ '@' ∧ c ≠ ':' ∧ c ≠ '[' ∧ c ≠ ']' :=
  isHostChar_iff.mp (List.all_eq_true.mp hhost c hc)

theorem filter_host (hhost : lake.host.all isHostChar = true) :
    lake.host.filter isKept = lake.host :=
  List.filter_eq_self.mpr fun _ hc => (mem_host hhost hc).1

/-- The network location of a lake whose host stands in the URL as it is. -/
theorem netTail_of_hostChars (hhost : lake.host.all isHostChar = true) :
    lake.netTail = lake.host ++ ':' :: lake.portText := by
  rcases netTail_cases lake with ⟨hshort, hpre⟩ | ⟨-, htail⟩
  · exfalso
    have hall : ∀ c ∈ lake.host, (!endsNetloc c) = true := by
      intro c hc
      rw [(mem_host hhost hc).2.1]
      rfl
    have hlonger : lake.host.length ≤ lake.netTail.length := by
      unfold ExternalLake.netTail ExternalLake.tail
      rw [filter_host hhost, List.takeWhile_append_of_pos hall, List.length_append]
      exact Nat.le_add_right _ _
    omega
  · rw [htail, filter_host hhost]

theorem path_of_hostChars (hhost : lake.host.all isHostChar = true) :
    lake.parsed.path = '/' :: lake.cutDatabase := by
  have hall : ∀ c ∈ lake.host ++ ':' :: lake.portText, (!endsNetloc c) = true := by
    rw [← netTail_of_hostChars hhost]
    exact fun c hc => List.mem_takeWhile_imp (p := fun d => !endsNetloc d) hc
  have htail : lake.tail =
      (lake.host ++ ':' :: lake.portText) ++ '/' :: lake.database.filter isKept := by
    unfold ExternalLake.tail
    rw [filter_host hhost, List.append_assoc]
    rfl
  have hdrop : lake.tail.dropWhile (!endsNetloc ·) = '/' :: lake.database.filter isKept := by
    rw [htail, List.dropWhile_append_of_pos hall]
    rfl
  show pathOf (lake.tail.dropWhile (!endsNetloc ·)) = _
  rw [hdrop, pathOf, partition_fst, partition_fst]
  rfl

theorem portText_ne_nil (lake : ExternalLake) : lake.portText ≠ [] := by
  unfold ExternalLake.portText
  cases lake.port with
  | ofNat n =>
    intro hempty
    have htext : Nat.toDigits 10 n = [] := (Nat.toList_repr ▸ hempty :)
    exact Nat.toDigits_ne_nil htext
  | negSucc n =>
    intro hempty
    have htext : ("-" ++ Nat.repr (n + 1)).toList = [] := hempty
    rw [String.toList_append] at htext
    exact absurd (List.append_eq_nil_iff.mp htext).1 (by decide)

/-- What `urlparse` reads from the network location. -/
theorem netloc_of_hostChars (hhost : lake.host.all isHostChar = true) :
    lake.parsed.userinfo = (some (quote lake.username), some (quote lake.password)) ∧
      lake.parsed.hostinfo.1 = lake.host ∧ lake.parsed.hostinfo.2 = some lake.portText := by
  have hne : ∀ d : Char, d.isDigit = false → d ≠ '-' → d ≠ ':' → d ∉ lake.host →
      d ∉ lake.host ++ ':' :: lake.portText := by
    intro d hdigit hminus hcolon hd hmem
    rcases List.mem_append.mp hmem with hmem | hmem
    · exact hd hmem
    · rcases List.mem_cons.mp hmem with hsame | hmem
      · exact hcolon hsame
      · exact not_mem_portText hdigit hminus hmem
  have hat : '@' ∉ lake.host ++ ':' :: lake.portText :=
    hne '@' rfl (by decide) (by decide) fun hmem => (mem_host hhost hmem).2.2.1 rfl
  have hopen : '[' ∉ lake.host ++ ':' :: lake.portText :=
    hne '[' rfl (by decide) (by decide) fun hmem => (mem_host hhost hmem).2.2.2.2.1 rfl
  have hnetloc : rpartition '@' lake.parsed.netloc =
      (some lake.credentials, lake.host ++ ':' :: lake.portText) := by
    show rpartition '@' (lake.credentials ++ '@' :: lake.netTail) = _
    rw [netTail_of_hostChars hhost, rpartition_append hat]
  have hcolon : ':' ∉ quote lake.username := fun hmem =>
    ne_of_isQuoted (isQuoted_of_mem_quote hmem) rfl rfl
  have hhostColon : ':' ∉ lake.host := fun hmem => (mem_host hhost hmem).2.2.2.1 rfl
  constructor
  · unfold Parsed.userinfo
    rw [hnetloc]
    show (some (partition ':' lake.credentials).1, (partition ':' lake.credentials).2) = _
    unfold ExternalLake.credentials
    rw [partition_append hcolon]
  · unfold Parsed.hostinfo
    simp only [hnetloc, partition_of_not_mem hopen, partition_append hhostColon]
    have hsome : (some lake.portText = some []) ↔ False := by simp [portText_ne_nil lake]
    simp only [hsome, if_false, and_self]

/-- A port that `urlparse` reads is the one of the row. -/
theorem shownPort_of_port (hhost : lake.host.all isHostChar = true) {port : Option ℕ}
    (hport : lake.parsed.port = some port) : (toString (shownPort port)).toList = lake.portText := by
  unfold Parsed.port at hport
  rw [(netloc_of_hostChars hhost).2.2] at hport
  dsimp only at hport
  split at hport
  next hdigits =>
    obtain ⟨hall, -⟩ := Bool.and_eq_true_iff.mp hdigits
    unfold ExternalLake.portText at hall hport ⊢
    cases hlake : lake.port with
    | ofNat n =>
      have htext : (toString (Int.ofNat n)).toList = Nat.toDigits 10 n := Nat.toList_repr
      have hn : n ≠ 0 := fun hzero => lake.port_ne (by rw [hlake, hzero]; rfl)
      rw [hlake, htext, Parsed.natOfDigits, Nat.ofDigitChars_ten_toDigits] at hport
      have hshown : shownPort port = n := by
        rw [← Option.some_inj.mp hport]
        exact if_neg hn
      rw [hshown]
      rfl
    | negSucc n =>
      exfalso
      have hminus : '-' ∈ (toString (Int.negSucc n)).toList := by
        show '-' ∈ ("-" ++ Nat.repr (n + 1)).toList
        rw [String.toList_append]
        exact List.mem_append_left _ (by decide)
      rw [hlake] at hall
      exact absurd (List.all_eq_true.mp hall '-' hminus) (by decide)
  · cases hport

/-- What a URL is that passes the check of its host. -/
theorem urlparse_of_allowed (hallowed : assertCatalogHostAllowed tables guard lake.url = .ok ()) :
    urlparse tables lake.url = some lake.parsed ∧
      validBrackets tables lake.parsed.netloc = true ∧
      (∃ hostname, lake.parsed.hostname = some hostname) ∧ ∃ port, lake.parsed.port = some port := by
  have hscheme : baseScheme lake.parsed ∉ ["sqlite", "file", ""] := by
    show String.ofList (postgresqlScheme.takeWhile (· ≠ '+')) ∉ ["sqlite", "file", ""]
    decide
  have hparse := urlparse_url tables lake
  unfold assertCatalogHostAllowed at hallowed
  split at hparse
  next hvalid =>
    rw [hparse] at hallowed
    simp only [if_neg hscheme] at hallowed
    cases hhostname : lake.parsed.hostname with
    | none =>
      rw [hhostname] at hallowed
      cases hallowed
    | some hostname =>
      cases hport : lake.parsed.port with
      | none =>
        rw [hhostname, hport] at hallowed
        cases hallowed
      | some port =>
        exact ⟨hparse, (Bool.and_eq_true_iff.mp hvalid).1, ⟨hostname, rfl⟩, ⟨port, rfl⟩⟩
  · rw [hparse] at hallowed
    cases hallowed

theorem attachString_url (tables : Tables) (lake : ExternalLake) :
    attachString tables lake.url none =
      (postgresAttachString tables lake.url).map ducklakePostgres := by
  have hscheme : baseScheme lake.parsed = "postgresql" := by
    show String.ofList (postgresqlScheme.takeWhile (· ≠ '+')) = "postgresql"
    decide
  have hsqlite : "postgresql" ∉ ["sqlite", "file", ""] := by decide
  have hpostgres : ¬ "postgresql" ∉ ["postgres", "postgresql"] := by decide
  unfold attachString postgresAttachString
  rw [urlparse_url]
  by_cases hvalid : (validBrackets tables lake.parsed.netloc &&
      validNetloc tables lake.parsed.netloc) = true
  · simp only [if_pos hvalid, hscheme, if_neg hsqlite, if_neg hpostgres]
    rfl
  · simp only [if_neg hvalid]
    rfl

/-- The connection string of a lake whose host stands in the URL as it is. -/
theorem postgresAttachString_url
    (hallowed : assertCatalogHostAllowed tables guard lake.url = .ok ())
    (hhost : lake.host.all isHostChar = true) {text : Text} :
    postgresAttachString tables lake.url = .ok text ↔
      withoutSlashes lake.cutDatabase ≠ [] ∧ text = lake.text := by
  obtain ⟨hparse, -, -, port, hport⟩ := urlparse_of_allowed hallowed
  obtain ⟨huserinfo, hhostinfo, -⟩ := netloc_of_hostChars hhost
  have hname : lake.parsed.hostname = some (Parsed.lowerHost lake.host) := by
    unfold Parsed.hostname
    rw [hhostinfo, if_neg lake.host_ne]
  have hpath : withoutSlashes lake.parsed.path = withoutSlashes lake.cutDatabase := by
    rw [path_of_hostChars hhost]
    rfl
  unfold postgresAttachString connectionString
  simp only [hparse, hname, hport, hpath, huserinfo]
  split
  next hempty => simp [hempty]
  next hdatabase =>
    have htext : connectionOptions (withoutSlashes lake.cutDatabase)
        (Parsed.lowerHost lake.host) port (quote lake.username) (quote lake.password) =
        lake.text := by
      unfold connectionOptions
      rw [shownPort_of_port hhost hport]
      rfl
    simp only [Option.getD_some, htext, Except.ok.injEq, ne_eq, hdatabase, not_false_eq_true,
      true_and, eq_comm]

/-! ## Denotation -/

/-- The options that a connection string of a catalog sets. -/
def optionNames : List String := ["dbname", "host", "port", "user", "password"]

namespace ExternalLake

variable (lake : ExternalLake)

/-- The fields of the row as settings, with the host as it is dialled. -/
def settings (host : Text) : List Conninfo.Setting :=
  [("dbname".toList, lake.database), ("host".toList, host), ("port".toList, lake.portText),
    ("user".toList, lake.username), ("password".toList, lake.password)]

/-- The connection string says what the row says and nothing else, with a host that is
the one of the row. -/
def DenotedBy (host text : Text) : Prop :=
  SameHost host lake.host ∧ ∃ found, Conninfo.settings text = some found ∧
    (∀ setting ∈ lake.settings host,
      Conninfo.valueOf found (String.ofList setting.1) = some setting.2) ∧
    ∀ setting ∈ found, String.ofList setting.1 ∈ optionNames

end ExternalLake

/-- A text between quotes is a literal that holds the text. -/
def IsLiteral (text : Text) : Prop :=
  marks ('\'' :: (text ++ ['\''])) = Mark.opening :: text.map Mark.content ++ [Mark.closing]

/-- The row reaches libpq: both connection strings denote it, the host in them is the one
that has been checked, and the literal of the ATTACH statement holds them. -/
def ReachesLibpq (tables : Tables) (lake : ExternalLake) : Prop :=
  ∃ parsed host text, urlparse tables lake.url = some parsed ∧ parsed.hostname = some host ∧
    postgresAttachString tables lake.url = .ok text ∧
    attachString tables lake.url none = .ok (ducklakePostgres text) ∧
    lake.DenotedBy host text ∧ IsLiteral text ∧ IsLiteral (ducklakePostgres text)

/-- The character is read as it stands by libpq and in a literal. -/
def isBare (c : Char) : Bool := !Conninfo.needsEscape c && c ≠ '\'' && c ≠ '\x00'

/-- The character of a database that `urlparse` leaves in the path. -/
def isPathChar (c : Char) : Bool := isBare c && c ≠ '#' && c ≠ '?'

/-- No field of the row has a character that a layer reads as its own. -/
structure ExternalLake.Plain (lake : ExternalLake) : Prop where
  username : lake.username.all isUnreserved = true
  password : lake.password.all isUnreserved = true
  host : (lake.host.all fun c => isHostChar c && isBare c) = true
  database : lake.database.all isPathChar = true
  database_head : lake.database.head? ≠ some '/'

/-! ## Literals -/

/-- A text is a literal between quotes when it has no quote. -/
theorem isLiteral_iff (text : Text) : IsLiteral text ↔ '\'' ∉ text := by
  have hself : '\'' ∉ text → doubled text = text := by
    intro hquote
    induction text with
    | nil => rfl
    | cons c text ih =>
      have hc : c ≠ '\'' := fun hsame => hquote (hsame ▸ List.mem_cons_self)
      rw [doubled_cons hc, ih fun hmem => hquote (List.mem_cons_of_mem c hmem)]
  constructor
  · intro hliteral hmem
    have hwrite := write_marks ('\'' :: (text ++ ['\'']))
    have hcontent : (text.map Mark.content).flatMap Mark.write = doubled text := by
      rw [List.flatMap_map]
      rfl
    rw [hliteral, List.flatMap_append, List.flatMap_cons, hcontent] at hwrite
    have hdoubled : doubled text = text := by
      have hinner : doubled text ++ ['\''] = text ++ ['\''] := List.cons.inj hwrite |>.2
      exact List.append_cancel_right hinner
    have hcount : (doubled text).count '\'' = 2 * text.count '\'' := by
      clear hliteral hmem hwrite hcontent hdoubled hself
      induction text with
      | nil => rfl
      | cons c text ih =>
        by_cases hc : c = '\''
        · rw [hc, doubled_quote, List.count_cons_self, List.count_cons_self,
            List.count_cons_self, ih]
          omega
        · rw [doubled_cons hc, List.count_cons_of_ne hc, List.count_cons_of_ne hc, ih]
    have hpos := List.count_pos_iff.mpr hmem
    rw [hdoubled] at hcount
    omega
  · intro hquote
    have hmarks : marksFrom .code (quoted text ++ []) = _ := marksFrom_quoted text rfl (by decide)
    rw [List.append_nil, quoted, hself hquote] at hmarks
    exact hmarks

/-! ## What is told without being meant -/

theorem isQuoted_of_mem_name : ∀ name ∈ optionNames, ∀ c ∈ name.toList, isQuoted c = true := by
  have hnames : optionNames.all (fun name => name.toList.all isQuoted) = true := by decide
  intro name hname
  exact List.all_eq_true.mp (List.all_eq_true.mp hnames name hname)

theorem isQuoted_of_mem_portText {c : Char} (hc : c ∈ lake.portText) : isQuoted c = true := by
  rcases mem_portText hc with hdigit | hminus
  · simp [isQuoted, isUnreserved, Char.isAlphanum, hdigit]
  · rw [hminus]
    rfl

/-- Where a character of a connection string comes from that is the string's own nowhere. -/
theorem mem_text {d : Char} (hquoted : isQuoted d = false) (hblank : d ≠ ' ') (hequals : d ≠ '=') :
    d ∈ lake.text ↔ d ∈ withoutSlashes lake.cutDatabase ∨ d ∈ Parsed.lowerHost lake.host := by
  have hnot : ∀ text : Text, (∀ c ∈ text, isQuoted c = true) → d ∉ text := fun text htext hmem =>
    ne_of_isQuoted (htext d hmem) hquoted rfl
  have hname : ∀ name ∈ optionNames, d ∉ name.toList := fun name hname =>
    hnot _ (isQuoted_of_mem_name name hname)
  have hport : d ∉ lake.portText := hnot _ fun c hc => isQuoted_of_mem_portText hc
  have hquote : ∀ text : Text, d ∉ quote text := fun text =>
    hnot _ fun c hc => isQuoted_of_mem_quote hc
  simp only [ExternalLake.text, option, List.mem_append, List.mem_cons,
    hname "dbname" (by decide), hname "host" (by decide), hname "port" (by decide),
    hname "user" (by decide), hname "password" (by decide), hport, hquote, hblank, hequals,
    false_or, or_false]

theorem length_optionName : "dbname".toList.length = 6 ∧ "host".toList.length = 4 ∧
    "port".toList.length = 4 ∧ "user".toList.length = 4 ∧ "password".toList.length = 8 :=
  ⟨rfl, rfl, rfl, rfl, rfl⟩

theorem length_text (lake : ExternalLake) :
    lake.text.length = 35 + (withoutSlashes lake.cutDatabase).length + lake.host.length +
      lake.portText.length + (quote lake.username).length + (quote lake.password).length := by
  simp only [ExternalLake.text, option, List.length_append, List.length_cons, length_optionName,
    Parsed.length_lowerHost]
  omega

/-- A null character ends a connection string before the port. -/
theorem length_takeWhile_text (hnull : '\x00' ∈ lake.text) :
    (lake.text.takeWhile (· ≠ '\x00')).length ≤
      13 + (withoutSlashes lake.cutDatabase).length + lake.host.length := by
  let start := option "dbname" (withoutSlashes lake.cutDatabase) ++
    ' ' :: option "host" (Parsed.lowerHost lake.host)
  have hstart : '\x00' ∈ start := by
    rcases (mem_text rfl (by decide) (by decide)).mp hnull with hdatabase | hname
    · simp [start, option, hdatabase]
    · simp [start, option, hname]
  have hlength : start.length = 13 + (withoutSlashes lake.cutDatabase).length + lake.host.length := by
    simp only [start, option, List.length_append, List.length_cons, length_optionName,
      Parsed.length_lowerHost]
    omega
  have hshort : (start.takeWhile (· ≠ '\x00')).length ≠ start.length := by
    intro hwhole
    have hself := (List.takeWhile_prefix (· ≠ '\x00')).eq_of_length hwhole
    exact of_decide_eq_true (List.takeWhile_eq_self_iff.mp hself '\x00' hstart) rfl
  have htext : lake.text = start ++ ' ' :: (option "port" lake.portText ++
      ' ' :: (option "user" (quote lake.username) ++
      ' ' :: option "password" (quote lake.password))) := by
    simp only [ExternalLake.text, start, List.append_assoc, List.cons_append]
  rw [htext, List.takeWhile_append, if_neg hshort, ← hlength]
  exact (List.takeWhile_prefix _).length_le

theorem sum_weight_settings (lake : ExternalLake) (host : Text) :
    ((lake.settings host).map Conninfo.weight).sum =
      36 + lake.database.length + host.length + lake.portText.length + lake.username.length +
        lake.password.length + Conninfo.excess lake.database + Conninfo.excess host +
        Conninfo.excess lake.portText + Conninfo.excess lake.username +
        Conninfo.excess lake.password := by
  simp only [ExternalLake.settings, Conninfo.weight, List.map_cons, List.map_nil, List.sum_cons,
    List.sum_nil, length_optionName]
  omega

theorem nodup_settings (lake : ExternalLake) (host : Text) : (lake.settings host).Nodup := by
  apply List.Nodup.of_map Prod.fst
  show (optionNames.map String.toList).Nodup
  decide

/-- A quoted text is a plain value. -/
theorem plain_quote (text : Text) : Conninfo.isPlain (quote text) = true ∧ '\'' ∉ quote text := by
  constructor
  · unfold Conninfo.isPlain
    rw [Bool.not_eq_true', List.any_eq_false]
    intro c hc
    have hquoted := isQuoted_of_mem_quote hc
    have hne : ∀ d : Char, isQuoted d = false → c ≠ d := fun d hd => ne_of_isQuoted hquoted hd
    simp [Conninfo.needsEscape, Conninfo.isSpace, hne ' ' rfl, hne '\t' rfl, hne '\n' rfl,
      hne '\x0b' rfl, hne '\x0c' rfl, hne '\r' rfl, hne '\\' rfl]
  · intro hmem
    exact ne_of_isQuoted (isQuoted_of_mem_quote hmem) rfl rfl

theorem quote_ne_nil {text : Text} (htext : text ≠ []) : quote text ≠ [] := by
  intro hempty
  have hle := (length_le_length_quote text).1
  rw [hempty] at hle
  exact htext (List.eq_nil_of_length_eq_zero (Nat.le_zero.mp hle))

/-- The end of a connection string is read as it stands. -/
theorem settingsFrom_credentials (lake : ExternalLake) :
    Conninfo.settingsFrom .start (option "user" (quote lake.username) ++
        ' ' :: option "password" (quote lake.password)) =
      some [("user".toList, quote lake.username), ("password".toList, quote lake.password)] := by
  obtain ⟨husername, husernameQuote⟩ := plain_quote lake.username
  obtain ⟨hpassword, hpasswordQuote⟩ := plain_quote lake.password
  have huserName : Conninfo.IsName "user".toList := rfl
  have hpasswordName : Conninfo.IsName "password".toList := rfl
  unfold option
  rw [List.append_assoc, List.cons_append, Conninfo.settingsFrom_cons huserName _ husername
    (quote_ne_nil lake.username_ne) husernameQuote, Conninfo.settingsFrom_singleton hpasswordName
    hpassword (quote_ne_nil lake.password_ne) hpasswordQuote]
  rfl

/-- The credentials are the last settings of a string that is read to its end. -/
theorem exists_append_credentials {found : List Conninfo.Setting}
    (hfound : Conninfo.settings lake.text = some found) (hquote : '\'' ∉ lake.text)
    (hnull : '\x00' ∉ lake.text) :
    ∃ first, found = first ++
      [("user".toList, quote lake.username), ("password".toList, quote lake.password)] := by
  have hwhole : lake.text.takeWhile (· ≠ '\x00') = lake.text :=
    List.takeWhile_eq_self_iff.mpr fun c hc => decide_eq_true fun hsame => hnull (hsame ▸ hc)
  unfold Conninfo.settings at hfound
  rw [hwhole] at hfound
  split at hfound
  · cases hfound
  next all hall =>
    split at hfound
    · have hport : lake.portText ≠ [] := portText_ne_nil lake
      -- The last digit of the port makes the reader begin anew at the user.
      let last := lake.portText.getLast hport
      have hlast : Conninfo.isLetter last = true := by
        have hquoted := isQuoted_of_mem_portText (List.getLast_mem hport)
        have hne : ∀ d : Char, isQuoted d = false → last ≠ d := fun d hd =>
          ne_of_isQuoted hquoted hd
        simp [Conninfo.isLetter, Conninfo.isSpace, hne ' ' rfl, hne '\t' rfl, hne '\n' rfl,
          hne '\x0b' rfl, hne '\x0c' rfl, hne '\r' rfl, hne '\\' rfl, hne '=' rfl, hne '\'' rfl]
      let start := option "dbname" (withoutSlashes lake.cutDatabase) ++
        ' ' :: (option "host" (Parsed.lowerHost lake.host) ++
        ' ' :: option "port" lake.portText.dropLast)
      have htext : lake.text = start ++ last :: ' ' :: (option "user" (quote lake.username) ++
          ' ' :: option "password" (quote lake.password)) := by
        have hdigits : lake.portText = lake.portText.dropLast ++ [last] :=
          (List.dropLast_concat_getLast hport).symm
        unfold ExternalLake.text
        rw [hdigits]
        simp only [start, option, List.append_assoc, List.cons_append]
        rfl
      have hstart : '\'' ∉ start := by
        rw [htext] at hquote
        exact fun hmem => hquote (List.mem_append_left _ hmem)
      rw [htext] at hall
      obtain ⟨first, others, hothers, happend⟩ :=
        Conninfo.exists_settingsFrom_of_letter hall hstart hlast (by decide)
      have hcredentials : some others = some
          [("user".toList, quote lake.username), ("password".toList, quote lake.password)] :=
        hothers.symm.trans (settingsFrom_credentials lake)
      exact ⟨first, by rw [← Option.some_inj.mp hfound, happend, Option.some_inj.mp hcredentials]⟩
    · cases hfound

theorem valueOf_credentials (lake : ExternalLake) (first : List Conninfo.Setting) :
    let found := first ++
      [("user".toList, quote lake.username), ("password".toList, quote lake.password)]
    Conninfo.valueOf found "user" = some (quote lake.username) ∧
      Conninfo.valueOf found "password" = some (quote lake.password) := by
  intro found
  constructor
  · rw [Conninfo.valueOf_append]
    rfl
  · rw [Conninfo.valueOf_append]
    rfl

/-! ## What reaches libpq -/

/-- A database that keeps its length has lost nothing. -/
theorem database_of_length
    (hlength : lake.database.length ≤ (withoutSlashes lake.cutDatabase).length) :
    withoutSlashes lake.cutDatabase = lake.database ∧
      (∀ c ∈ lake.database, c ≠ '#' ∧ c ≠ '?') ∧ lake.database.head? ≠ some '/' := by
  have hslashes : withoutSlashes lake.cutDatabase <:+ lake.cutDatabase := List.dropWhile_suffix _
  have hquery : lake.cutDatabase <+: (lake.database.filter isKept).takeWhile (· ≠ '#') :=
    List.takeWhile_prefix _
  have hfragment := List.takeWhile_prefix (· ≠ '#') (l := lake.database.filter isKept)
  have hfilter := List.filter_sublist (p := isKept) (l := lake.database)
  have hslashesLength := hslashes.length_le
  have hqueryLength := hquery.length_le
  have hfragmentLength := hfragment.length_le
  have hfilterLength := hfilter.length_le
  have hkept := hfilter.eq_of_length (by omega)
  have hnoFragment := hfragment.eq_of_length (by omega)
  have hnoQuery := hquery.eq_of_length (by omega)
  have hnoSlash := hslashes.eq_of_length (by omega)
  have hcut : lake.cutDatabase = lake.database := hnoQuery.trans (hnoFragment.trans hkept)
  have htaken : lake.database.takeWhile (· ≠ '?') = lake.database := by
    have hself : lake.cutDatabase =
        ((lake.database.filter isKept).takeWhile (· ≠ '#')).takeWhile (· ≠ '?') := rfl
    rwa [hnoFragment, hkept, hcut, eq_comm] at hself
  rw [hkept] at hnoFragment
  apply And.intro (hnoSlash.trans hcut)
  constructor
  · intro c hc
    exact ⟨of_decide_eq_true (List.takeWhile_eq_self_iff.mp hnoFragment c hc),
      of_decide_eq_true (List.takeWhile_eq_self_iff.mp htaken c hc)⟩
  · intro hhead
    rw [hcut] at hnoSlash
    cases hdatabase : lake.database with
    | nil => exact lake.database_ne hdatabase
    | cons c rest =>
      rw [hdatabase] at hhead hnoSlash
      rw [Option.some_inj.mp hhead] at hnoSlash
      have hlonger : rest.length + 1 ≤ rest.length := by
        have hdrop : withoutSlashes ('/' :: rest) = withoutSlashes rest := rfl
        rw [← List.length_cons, ← hnoSlash, hdrop]
        exact (List.dropWhile_suffix _).length_le
      omega

theorem isBare_iff {c : Char} :
    isBare c = true ↔ Conninfo.needsEscape c = false ∧ c ≠ '\'' ∧ c ≠ '\x00' := by
  simp only [isBare, Bool.and_eq_true, Bool.not_eq_true', decide_eq_true_eq, and_assoc]

/-- The same host has the same characters but for their case. -/
theorem SameHost.mem_iff {own other : Text} (hsame : SameHost own other) {d : Char}
    (hd : d.isAlpha = false) : d ∈ own ↔ d ∈ other := by
  rw [← List.count_pos_iff, ← List.count_pos_iff, hsame.count_eq hd]

theorem isAlpha_of_not_bare {c : Char} (hc : isBare c = false) : c.isAlpha = false := by
  have hcases : Conninfo.needsEscape c = true ∨ c = '\'' ∨ c = '\x00' := by
    by_contra hnone
    rw [not_or, not_or, Bool.not_eq_true] at hnone
    rw [isBare_iff.mpr hnone] at hc
    cases hc
  rcases hcases with hescape | hquote | hnull
  · have hblank : [' ', '\t', '\n', '\x0b', '\x0c', '\r', '\\'].all (fun d => !d.isAlpha) = true := by
      decide
    apply (Bool.not_eq_true' _).mp
    apply List.all_eq_true.mp hblank
    simpa [Conninfo.needsEscape, Conninfo.isSpace, or_assoc] using hescape
  · rw [hquote]
    rfl
  · rw [hnull]
    rfl

/-- A value that costs nothing beyond its length, in a string without quotes that is read
to its end, has bare characters only. -/
theorem isBare_of_excess {value : Text} (hexcess : Conninfo.excess value = 0)
    (hquote : '\'' ∉ value) (hnull : '\x00' ∉ value) {c : Char} (hc : c ∈ value) :
    isBare c = true := by
  have hplain : Conninfo.isPlain value = true := by
    unfold Conninfo.excess at hexcess
    split at hexcess
    · assumption
    · cases hexcess
  have hnone : value.any Conninfo.needsEscape = false := by
    simpa [Conninfo.isPlain] using hplain
  have hescape := List.any_eq_false.mp hnone c hc
  exact isBare_iff.mpr ⟨Bool.eq_false_iff.mpr hescape, fun hsame => hquote (hsame ▸ hc),
    fun hsame => hnull (hsame ▸ hc)⟩

/-- A row that reaches libpq is plain. -/
theorem plain_of_reaches (hallowed : assertCatalogHostAllowed tables guard lake.url = .ok ())
    (hreaches : ReachesLibpq tables lake) : lake.Plain := by
  obtain ⟨parsed, host, text, hparsed, hname, hattach, -, hdenoted, hliteral, -⟩ := hreaches
  obtain ⟨hsame, found, hfound, hvalues, -⟩ := hdenoted
  obtain ⟨hparse, hbrackets, -, -⟩ := urlparse_of_allowed hallowed
  rw [Option.some_inj.mp (hparsed.symm.trans hparse)] at hname
  have hhost := isHostChar_of_hostname hname hsame hbrackets
  obtain ⟨-, htext⟩ := (postgresAttachString_url hallowed hhost).mp hattach
  rw [htext] at hfound hliteral
  have hquote := (isLiteral_iff _).mp hliteral
  -- All that the row says has to stand in the string.
  have hsubset : lake.settings host ⊆ found := by
    intro setting hsetting
    have hmem := Conninfo.mem_of_valueOf (hvalues setting hsetting)
    rwa [String.toList_ofList] at hmem
  have hweight := Conninfo.weight_settings hfound hquote (nodup_settings lake host) hsubset
  have hlength := length_text lake
  have hhostLength := hsame.length_eq
  have hcut : (withoutSlashes lake.cutDatabase).length ≤ lake.database.length :=
    (List.dropWhile_suffix _).length_le.trans ((List.takeWhile_prefix _).length_le.trans
      ((List.takeWhile_prefix _).length_le.trans (List.length_filter_le _ _)))
  rw [sum_weight_settings] at hweight
  have hnull : '\x00' ∉ lake.text := by
    intro hmem
    have hshort := length_takeWhile_text hmem
    omega
  obtain ⟨first, hcredentials⟩ := exists_append_credentials hfound hquote hnull
  obtain ⟨huserValue, hpasswordValue⟩ := valueOf_credentials lake first
  rw [← hcredentials] at huserValue hpasswordValue
  have husername : lake.username = quote lake.username := by
    have hvalue := hvalues ("user".toList, lake.username) (by simp [ExternalLake.settings])
    rw [String.ofList_toList, huserValue] at hvalue
    exact (Option.some_inj.mp hvalue).symm
  have hpassword : lake.password = quote lake.password := by
    have hvalue := hvalues ("password".toList, lake.password) (by simp [ExternalLake.settings])
    rw [String.ofList_toList, hpasswordValue] at hvalue
    exact (Option.some_inj.mp hvalue).symm
  have husernameLength := congrArg List.length husername
  have hpasswordLength := congrArg List.length hpassword
  have htaken : (lake.text.takeWhile (· ≠ '\x00')).length ≤ lake.text.length :=
    (List.takeWhile_prefix _).length_le
  have hkept : lake.database.length ≤ (withoutSlashes lake.cutDatabase).length := by omega
  obtain ⟨hdatabase, hpath, hhead⟩ := database_of_length hkept
  have hexcess : Conninfo.excess lake.database = 0 ∧ Conninfo.excess host = 0 := by omega
  have hmemDatabase : ∀ d, isQuoted d = false → d ≠ ' ' → d ≠ '=' → d ∉ lake.text →
      d ∉ lake.database := by
    intro d hquoted hblank hequals hnot hmem
    apply hnot
    exact (mem_text hquoted hblank hequals).mpr (Or.inl (hdatabase ▸ hmem))
  have hmemHost : ∀ d, isQuoted d = false → d ≠ ' ' → d ≠ '=' → d.isAlpha = false →
      d ∉ lake.text → d ∉ host := by
    intro d hquoted hblank hequals halpha hnot hmem
    apply hnot
    apply (mem_text hquoted hblank hequals).mpr
    exact Or.inr (((sameHost_lowerHost lake.host).mem_iff halpha).mpr ((hsame.mem_iff halpha).mp hmem))
  have hhostQuote := hmemHost '\'' rfl (by decide) (by decide) rfl hquote
  have hhostNull := hmemHost '\x00' rfl (by decide) (by decide) rfl hnull
  constructor
  · exact (length_le_length_quote lake.username).2 husernameLength.symm
  · exact (length_le_length_quote lake.password).2 hpasswordLength.symm
  · rw [List.all_eq_true]
    intro c hc
    rw [Bool.and_eq_true]
    apply And.intro (List.all_eq_true.mp hhost c hc)
    by_contra hbare
    have halpha := isAlpha_of_not_bare (Bool.eq_false_iff.mpr hbare)
    exact hbare (isBare_of_excess hexcess.2 hhostQuote hhostNull ((hsame.mem_iff halpha).mpr hc))
  · rw [List.all_eq_true]
    intro c hc
    obtain ⟨hfragment, hquery⟩ := hpath c hc
    have hbare := isBare_of_excess hexcess.1 (hmemDatabase '\'' rfl (by decide) (by decide) hquote)
      (hmemDatabase '\x00' rfl (by decide) (by decide) hnull) hc
    simp [isPathChar, hbare, hfragment, hquery]
  · exact hhead

/-- A bare value is read as it stands. -/
theorem plain_of_bare {value : Text} (hvalue : ∀ c ∈ value, isBare c = true) :
    Conninfo.isPlain value = true ∧ '\'' ∉ value ∧ '\x00' ∉ value := by
  constructor
  · unfold Conninfo.isPlain
    rw [Bool.not_eq_true', List.any_eq_false]
    intro c hc
    rw [(isBare_iff.mp (hvalue c hc)).1]
    exact Bool.false_ne_true
  · exact ⟨fun hmem => (isBare_iff.mp (hvalue _ hmem)).2.1 rfl,
      fun hmem => (isBare_iff.mp (hvalue _ hmem)).2.2 rfl⟩

theorem isBare_of_isQuoted {c : Char} (hc : isQuoted c = true) : isBare c = true := by
  have hne : ∀ d : Char, isQuoted d = false → c ≠ d := fun d hd => ne_of_isQuoted hc hd
  simp [isBare, Conninfo.needsEscape, Conninfo.isSpace, hne ' ' rfl, hne '\t' rfl, hne '\n' rfl,
    hne '\x0b' rfl, hne '\x0c' rfl, hne '\r' rfl, hne '\\' rfl, hne '\'' rfl, hne '\x00' rfl]

/-- The database of a plain row stands in the string as it is. -/
theorem database_of_plain (hplain : lake.Plain) : withoutSlashes lake.cutDatabase = lake.database := by
  have hpath : ∀ c ∈ lake.database, isBare c = true ∧ c ≠ '#' ∧ c ≠ '?' := by
    intro c hc
    simpa [isPathChar, and_assoc] using List.all_eq_true.mp hplain.database c hc
  have hkept : lake.database.filter isKept = lake.database := by
    rw [List.filter_eq_self]
    intro c hc
    have hescape := (isBare_iff.mp (hpath c hc).1).1
    have hblank : ∀ d ∈ ['\t', '\r', '\n'], Conninfo.needsEscape d = true :=
      List.all_eq_true.mp (by decide)
    have hne : ∀ d ∈ ['\t', '\r', '\n'], c ≠ d := by
      intro d hd hsame
      rw [hsame, hblank d hd] at hescape
      cases hescape
    simp [isKept, hne '\t' (by simp), hne '\r' (by simp), hne '\n' (by simp)]
  have hfragment : lake.database.takeWhile (· ≠ '#') = lake.database :=
    List.takeWhile_eq_self_iff.mpr fun c hc => decide_eq_true (hpath c hc).2.1
  have hquery : lake.database.takeWhile (· ≠ '?') = lake.database :=
    List.takeWhile_eq_self_iff.mpr fun c hc => decide_eq_true (hpath c hc).2.2
  have hcut : lake.cutDatabase = lake.database := by
    rw [ExternalLake.cutDatabase, hkept, hfragment, hquery]
  rw [hcut]
  cases hdatabase : lake.database with
  | nil => rfl
  | cons c rest =>
    have hc : c ≠ '/' := by
      intro hslash
      apply hplain.database_head
      rw [hdatabase, hslash]
      rfl
    exact List.dropWhile_cons_of_neg (by simpa using hc)

/-- What libpq reads of a plain row. -/
theorem settings_text (hplain : lake.Plain) (hnull : '\x00' ∉ lake.text) :
    Conninfo.settings lake.text = some (lake.settings (Parsed.lowerHost lake.host)) := by
  have hwhole : lake.text.takeWhile (· ≠ '\x00') = lake.text :=
    List.takeWhile_eq_self_iff.mpr fun c hc => decide_eq_true fun hsame => hnull (hsame ▸ hc)
  have hdatabase : ∀ c ∈ lake.database, isBare c = true := by
    intro c hc
    have hpath := List.all_eq_true.mp hplain.database c hc
    simp only [isPathChar, Bool.and_eq_true] at hpath
    exact hpath.1.1
  have hhost : ∀ c ∈ Parsed.lowerHost lake.host, isBare c = true := by
    intro c hc
    by_contra hbare
    have halpha := isAlpha_of_not_bare (Bool.eq_false_iff.mpr hbare)
    have hmem := ((sameHost_lowerHost lake.host).mem_iff halpha).mp hc
    exact hbare (Bool.and_eq_true_iff.mp (List.all_eq_true.mp hplain.host c hmem)).2
  have hhostNe : Parsed.lowerHost lake.host ≠ [] := by
    intro hempty
    have hlength := Parsed.length_lowerHost lake.host
    rw [hempty] at hlength
    exact lake.host_ne (List.eq_nil_of_length_eq_zero hlength.symm)
  obtain ⟨hdatabasePlain, hdatabaseQuote, -⟩ := plain_of_bare hdatabase
  obtain ⟨hhostPlain, hhostQuote, -⟩ := plain_of_bare hhost
  have hport : ∀ c ∈ lake.portText, isBare c = true := fun c hc =>
    isBare_of_isQuoted (isQuoted_of_mem_portText hc)
  obtain ⟨hportPlain, hportQuote, -⟩ := plain_of_bare hport
  have hdbname : Conninfo.IsName "dbname".toList := rfl
  have hhostName : Conninfo.IsName "host".toList := rfl
  have hportName : Conninfo.IsName "port".toList := rfl
  have hall : Conninfo.settingsFrom .start lake.text =
      some (lake.settings (Parsed.lowerHost lake.host)) := by
    unfold ExternalLake.text
    rw [database_of_plain hplain]
    simp only [option, List.append_assoc, List.cons_append]
    rw [Conninfo.settingsFrom_cons hdbname _ hdatabasePlain lake.database_ne hdatabaseQuote,
      Conninfo.settingsFrom_cons hhostName _ hhostPlain hhostNe hhostQuote,
      Conninfo.settingsFrom_cons hportName _ hportPlain (portText_ne_nil lake) hportQuote]
    have hcredentials := settingsFrom_credentials lake
    simp only [option, List.append_assoc, List.cons_append] at hcredentials
    rw [hcredentials, quote_of_unreserved hplain.username, quote_of_unreserved hplain.password]
    rfl
  unfold Conninfo.settings
  rw [hwhole, hall]
  rfl

/-- A plain row reaches libpq. -/
theorem reaches_of_plain (hallowed : assertCatalogHostAllowed tables guard lake.url = .ok ())
    (hplain : lake.Plain) : ReachesLibpq tables lake := by
  have hhost : lake.host.all isHostChar = true := by
    rw [List.all_eq_true]
    intro c hc
    exact (Bool.and_eq_true_iff.mp (List.all_eq_true.mp hplain.host c hc)).1
  have hdatabase := database_of_plain hplain
  obtain ⟨hparse, -, -, -⟩ := urlparse_of_allowed hallowed
  have hname : lake.parsed.hostname = some (Parsed.lowerHost lake.host) := by
    unfold Parsed.hostname
    rw [(netloc_of_hostChars hhost).2.1, if_neg lake.host_ne]
  have hattach : postgresAttachString tables lake.url = .ok lake.text :=
    (postgresAttachString_url hallowed hhost).mpr ⟨hdatabase ▸ lake.database_ne, rfl⟩
  have hnot : ∀ d, isQuoted d = false → d ≠ ' ' → d ≠ '=' → isBare d = false → d ∉ lake.text := by
    intro d hquoted hblank hequals hbare hmem
    rcases (mem_text hquoted hblank hequals).mp hmem with hmem | hmem
    · rw [hdatabase] at hmem
      have hpath := List.all_eq_true.mp hplain.database d hmem
      rw [isPathChar, hbare] at hpath
      cases hpath
    · have halpha := isAlpha_of_not_bare hbare
      have hmem := ((sameHost_lowerHost lake.host).mem_iff halpha).mp hmem
      have hchar := List.all_eq_true.mp hplain.host d hmem
      rw [hbare, Bool.and_false] at hchar
      cases hchar
  have hquote := hnot '\'' rfl (by decide) (by decide) rfl
  have hnull := hnot '\x00' rfl (by decide) (by decide) rfl
  have hsettings := settings_text hplain hnull
  refine ⟨lake.parsed, Parsed.lowerHost lake.host, lake.text, hparse, hname, hattach, ?_,
    ⟨sameHost_lowerHost lake.host, lake.settings (Parsed.lowerHost lake.host), hsettings, ?_, ?_⟩,
    (isLiteral_iff _).mpr hquote, (isLiteral_iff _).mpr ?_⟩
  · rw [attachString_url, hattach]
    rfl
  · intro setting hsetting
    simp only [ExternalLake.settings, List.mem_cons, List.not_mem_nil, or_false] at hsetting
    rcases hsetting with hfirst | hfirst | hfirst | hfirst | hfirst <;>
      rw [hfirst, String.ofList_toList] <;> rfl
  · intro setting hsetting
    have hmem := List.mem_map_of_mem (f := fun other => String.ofList other.1) hsetting
    exact hmem
  · intro hmem
    rcases List.mem_append.mp hmem with hscheme | htext
    · exact absurd hscheme (by decide)
    · exact hquote htext

/-- Where the host is allowed, a row reaches libpq exactly when it is plain. -/
theorem reachesLibpq_iff_plain (tables : Tables) (guard : Text → Option ℕ → Except Raised Unit)
    (lake : ExternalLake) (hallowed : assertCatalogHostAllowed tables guard lake.url = .ok ()) :
    ReachesLibpq tables lake ↔ lake.Plain :=
  ⟨plain_of_reaches hallowed, reaches_of_plain hallowed⟩

/-- A lake of the host `db` with a password of its own. -/
def companyLake (password : Text) (hpassword : password ≠ []) : ExternalLake :=
  ⟨['d', 'b'], 5432, ['l', 'a', 'k', 'e'], ['l', 'o', 'a', 'd', 'e', 'r'], password,
    by decide, by decide, by decide, by decide, hpassword⟩

/-- Tables that know of no address in brackets and change no character. -/
def asciiTables : Tables := ⟨fun _ => false, id⟩

theorem reachesLibpq_of_companyLake :
    ReachesLibpq asciiTables (companyLake ['s', '3', 'c', 'r', 'e', 't'] (by decide)) ↔
      (companyLake ['s', '3', 'c', 'r', 'e', 't'] (by decide)).Plain :=
  reachesLibpq_iff_plain asciiTables (fun _ _ => .ok ())
    (companyLake ['s', '3', 'c', 'r', 'e', 't'] (by decide)) (by decide +kernel)

/-- A password with an `@` reaches libpq quoted for the URL. -/
theorem not_reachesLibpq_of_quoted_password :
    ¬ ∀ (tables : Tables) (guard : Text → Option ℕ → Except Raised Unit) (lake : ExternalLake),
      assertCatalogHostAllowed tables guard lake.url = .ok () → ReachesLibpq tables lake := by
  intro hclaim
  let lake := companyLake ['p', '@', 's', 's'] (by decide)
  obtain ⟨parsed, host, text, -, -, hattach, -, ⟨-, found, hfound, hvalues, -⟩, -⟩ :=
    hclaim asciiTables (fun _ _ => .ok ()) lake (by decide +kernel)
  have htext : postgresAttachString asciiTables lake.url = .ok lake.text := by decide +kernel
  have hread : (Conninfo.settings lake.text).bind (Conninfo.valueOf · "password") =
      some ['p', '%', '4', '0', 's', 's'] := by decide +kernel
  have hvalue := hvalues ("password".toList, lake.password) (by simp [ExternalLake.settings])
  rw [← Except.ok.inj (htext.symm.trans hattach)] at hfound
  rw [String.ofList_toList] at hvalue
  rw [hfound, Option.bind_some, hvalue] at hread
  exact absurd hread (by decide)

end DbtCraft.Ingest.Lakehouse

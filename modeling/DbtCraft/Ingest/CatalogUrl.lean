/-
# Catalogs of external lakes

Whether the fields of a row reach libpq as they are. The credentials are quoted for the
URL and never unquoted, the other fields stand in the URL as they are, and nothing is
escaped for libpq or for the literal of the ATTACH statement.
-/

import DbtCraft.Ingest.AttachString
import DbtCraft.Sql.Conninfo
import DbtCraft.Sql.Marks

namespace DbtCraft.Ingest.Lakehouse

open DbtCraft.Python DbtCraft.Python.Url DbtCraft.Sql

/-- The row of an external PostgreSQL lake with its password; no field is empty. -/
structure ExternalLake where
  host : Text
  port : ℤ
  database : Text
  username : Text
  password : Text
  host_ne : host ≠ []
  port_ne : port ≠ 0
  database_ne : database ≠ []
  username_ne : username ≠ []
  password_ne : password ≠ []

namespace ExternalLake

variable (lake : ExternalLake)

/-- The row that the lake is kept in. -/
def row : CatalogRow := ⟨"postgresql", lake.host, some lake.port, lake.database, lake.username⟩

def portText : Text := (toString lake.port).toList

def credentials : Text := quote lake.username ++ ':' :: quote lake.password

/-- The catalog URL of the row. -/
def url : Text :=
  postgresqlScheme ++ ':' :: '/' :: '/' :: (lake.credentials ++ '@' :: (lake.host ++
    ':' :: (lake.portText ++ '/' :: lake.database)))

end ExternalLake

variable {lake : ExternalLake}

theorem portOf_row (lake : ExternalLake) : lake.row.portOf = lake.port := by
  show (if lake.port = 0 then 5432 else lake.port) = lake.port
  exact if_neg lake.port_ne

theorem catalogUrlFromRow_row (lake : ExternalLake) :
    catalogUrlFromRow lake.row lake.password = .ok lake.url := by
  have hfields : ¬ (lake.row.host = [] ∨ lake.row.database = []) :=
    not_or.mpr ⟨lake.host_ne, lake.database_ne⟩
  have htype : lake.row.catalogType ≠ "sqlite" := show "postgresql" ≠ "sqlite" by decide
  simp only [catalogUrlFromRow, if_neg htype, if_neg hfields, if_neg lake.password_ne, portOf_row]
  rfl

/-! ## Quoted text -/

/-- The character may stand in a quoted text. -/
def isQuoted (c : Char) : Bool := isUnreserved c || c = '%'

theorem isQuoted_hexDigit : ∀ digit < 16, isQuoted (hexDigit digit) = true := by decide

theorem isQuoted_of_mem_quoteByte {byte : UInt8} {c : Char} (hc : c ∈ quoteByte byte) :
    isQuoted c = true := by
  have hbyte : byte.toNat < 256 := byte.toNat_lt
  simp only [quoteByte, List.mem_cons, List.not_mem_nil, or_false] at hc
  rcases hc with hpercent | hhigh | hlow
  · rw [hpercent]
    rfl
  · rw [hhigh]
    exact isQuoted_hexDigit _ (by omega)
  · rw [hlow]
    exact isQuoted_hexDigit _ (by omega)

/-- `quote` leaves no other characters. -/
theorem isQuoted_of_mem_quote {text : Text} {c : Char} (hc : c ∈ quote text) :
    isQuoted c = true := by
  obtain ⟨d, -, hd⟩ := List.mem_flatMap.mp hc
  split at hd
  next hunreserved =>
    rw [List.mem_singleton.mp hd]
    simp [isQuoted, hunreserved]
  · obtain ⟨byte, -, hbyte⟩ := List.mem_flatMap.mp hd
    exact isQuoted_of_mem_quoteByte hbyte

theorem length_quote_cons (c : Char) (text : Text) :
    (quote (c :: text)).length =
      (if isUnreserved c then 1 else 3 * (String.utf8EncodeChar c).length) + (quote text).length := by
  have hbytes : ∀ bytes : List UInt8, (bytes.flatMap quoteByte).length = 3 * bytes.length := by
    intro bytes
    induction bytes with
    | nil => rfl
    | cons byte bytes ih =>
      rw [List.flatMap_cons, List.length_append, ih, List.length_cons]
      show 3 + _ = _
      omega
  unfold quote
  rw [List.flatMap_cons, List.length_append]
  split
  · rfl
  · rw [hbytes]

theorem length_utf8EncodeChar_pos (c : Char) : 0 < (String.utf8EncodeChar c).length := by
  rw [String.length_utf8EncodeChar]
  exact Char.utf8Size_pos c

/-- `quote` makes no text shorter, and keeps the length of an unreserved one only. -/
theorem length_le_length_quote (text : Text) :
    text.length ≤ (quote text).length ∧
      ((quote text).length = text.length → text.all isUnreserved = true) := by
  induction text with
  | nil => exact ⟨Nat.le_refl 0, fun _ => rfl⟩
  | cons c text ih =>
    obtain ⟨hle, heq⟩ := ih
    have hpos := length_utf8EncodeChar_pos c
    rw [length_quote_cons, List.length_cons, List.all_cons]
    split
    next hc =>
      refine ⟨by omega, fun hlength => ?_⟩
      rw [hc, heq (by omega)]
      rfl
    · exact ⟨by omega, by omega⟩

theorem quote_of_unreserved {text : Text} (htext : text.all isUnreserved = true) :
    quote text = text := by
  induction text with
  | nil => rfl
  | cons c text ih =>
    obtain ⟨hc, hrest⟩ := Bool.and_eq_true_iff.mp htext
    unfold quote at ih ⊢
    rw [List.flatMap_cons, if_pos hc, ih hrest]
    rfl

/-! ## The parsed URL -/

/-- A character of quoted credentials. -/
theorem ne_of_isQuoted {c d : Char} (hc : isQuoted c = true) (hd : isQuoted d = false) : c ≠ d := by
  intro hsame
  rw [hsame, hd] at hc
  cases hc

theorem mem_credentials {c : Char} (hc : c ∈ lake.credentials) : isQuoted c = true ∨ c = ':' := by
  rcases List.mem_append.mp hc with husername | hpassword
  · exact Or.inl (isQuoted_of_mem_quote husername)
  · rcases List.mem_cons.mp hpassword with hcolon | hquoted
    · exact Or.inr hcolon
    · exact Or.inl (isQuoted_of_mem_quote hquoted)

theorem not_mem_credentials {d : Char} (hd : isQuoted d = false) (hcolon : d ≠ ':') :
    d ∉ lake.credentials := by
  intro hmem
  rcases mem_credentials hmem with hquoted | hsame
  · exact ne_of_isQuoted hquoted hd rfl
  · exact hcolon hsame

/-- A port is written with digits and a sign. -/
theorem mem_portText {c : Char} (hc : c ∈ lake.portText) : c.isDigit = true ∨ c = '-' := by
  have hnat : ∀ n : ℕ, c ∈ (Nat.repr n).toList → c.isDigit = true := by
    intro n hn
    rw [Nat.toList_repr] at hn
    exact Nat.isDigit_of_mem_toDigits (by decide) (by decide) hn
  unfold ExternalLake.portText at hc
  cases hport : lake.port with
  | ofNat n =>
    rw [hport] at hc
    exact Or.inl (hnat n hc)
  | negSucc n =>
    rw [hport] at hc
    have htext : (toString (Int.negSucc n)).toList = '-' :: (Nat.repr (n + 1)).toList := by
      show ("-" ++ Nat.repr (n + 1)).toList = _
      rw [String.toList_append]
      rfl
    rw [htext] at hc
    rcases List.mem_cons.mp hc with hminus | hdigit
    · exact Or.inr hminus
    · exact Or.inl (hnat _ hdigit)

theorem not_mem_portText {d : Char} (hdigit : d.isDigit = false) (hminus : d ≠ '-') :
    d ∉ lake.portText := by
  intro hmem
  rcases mem_portText hmem with hd | hd
  · rw [hdigit] at hd
    cases hd
  · exact hminus hd

namespace ExternalLake

variable (lake : ExternalLake)

/-- The URL after its credentials, with what `urlparse` drops left out. -/
def tail : Text :=
  lake.host.filter isKept ++ ':' :: (lake.portText ++ '/' :: lake.database.filter isKept)

/-- The network location after the credentials. -/
def netTail : Text := lake.tail.takeWhile (!endsNetloc ·)

/-- What `urlparse` makes of the URL, if it raises nothing. -/
def parsed : Parsed :=
  ⟨postgresqlScheme, lake.credentials ++ '@' :: lake.netTail,
    pathOf (lake.tail.dropWhile (!endsNetloc ·))⟩

end ExternalLake

theorem filter_url (lake : ExternalLake) :
    (lake.url.dropWhile isControlOrSpace).filter isKept =
      postgresqlScheme ++ ':' :: '/' :: '/' :: (lake.credentials ++ '@' :: lake.tail) := by
  have hcredentials : lake.credentials.filter isKept = lake.credentials := by
    rw [List.filter_eq_self]
    intro c hc
    rcases mem_credentials hc with hquoted | hcolon
    · have hline := ne_of_isQuoted hquoted (d := '\n') rfl
      have hreturn := ne_of_isQuoted hquoted (d := '\r') rfl
      have htab := ne_of_isQuoted hquoted (d := '\t') rfl
      simp [isKept, hline, hreturn, htab]
    · rw [hcolon]
      rfl
  have hport : lake.portText.filter isKept = lake.portText := by
    rw [List.filter_eq_self]
    intro c hc
    rcases mem_portText hc with hdigit | hminus
    · have hne : ∀ d : Char, d.isDigit = false → c ≠ d := by
        intro d hd hsame
        rw [hsame, hd] at hdigit
        cases hdigit
      simp [isKept, hne '\n' rfl, hne '\r' rfl, hne '\t' rfl]
    · rw [hminus]
      rfl
  have hdrop : lake.url.dropWhile isControlOrSpace = lake.url := rfl
  have hscheme : postgresqlScheme.filter isKept = postgresqlScheme := by decide
  rw [hdrop]
  unfold ExternalLake.url ExternalLake.tail
  simp only [List.filter_append, List.filter_cons, hcredentials, hport, hscheme,
    show isKept ':' = true from rfl, show isKept '/' = true from rfl,
    show isKept '@' = true from rfl, if_true]

/-- What `urlparse` says of the URL. -/
theorem urlparse_url (tables : Tables) (lake : ExternalLake) :
    urlparse tables lake.url =
      if validBrackets tables lake.parsed.netloc && validNetloc tables lake.parsed.netloc then
        some lake.parsed
      else none := by
  have hscheme : splitScheme (postgresqlScheme ++ ':' :: '/' :: '/' ::
      (lake.credentials ++ '@' :: lake.tail)) =
      (postgresqlScheme, '/' :: '/' :: (lake.credentials ++ '@' :: lake.tail)) := by
    unfold splitScheme
    rw [partition_append (by decide)]
    rfl
  have hall : ∀ c ∈ lake.credentials ++ ['@'], (!endsNetloc c) = true := by
    intro c hc
    rcases List.mem_append.mp hc with hcredentials | hat
    · have hne : ∀ d : Char, isQuoted d = false → d ≠ ':' → c ≠ d := by
        intro d hd hcolon hsame
        exact not_mem_credentials hd hcolon (hsame ▸ hcredentials)
      simp [endsNetloc, hne '/' rfl (by decide), hne '?' rfl (by decide), hne '#' rfl (by decide)]
    · rw [List.mem_singleton.mp hat]
      rfl
  have hnetloc : splitNetloc ('/' :: '/' :: (lake.credentials ++ '@' :: lake.tail)) =
      (lake.parsed.netloc, lake.tail.dropWhile (!endsNetloc ·)) := by
    have happend : lake.credentials ++ '@' :: lake.tail = (lake.credentials ++ ['@']) ++ lake.tail :=
      by simp
    simp only [splitNetloc, happend]
    rw [List.takeWhile_append_of_pos hall, List.dropWhile_append_of_pos hall]
    simp [ExternalLake.parsed, ExternalLake.netTail]
  have hparams : String.ofList postgresqlScheme ∉ usesParams := by decide
  unfold urlparse
  rw [filter_url]
  simp only [hscheme, hnetloc, if_neg hparams]
  rfl

/-! ## The host -/

/-- The host names are the same, without regard to case. -/
def SameHost (own other : Text) : Prop := own.map Char.toLower = other.map Char.toLower

theorem SameHost.length_eq {own other : Text} (hsame : SameHost own other) :
    own.length = other.length := by
  have hlength := congrArg List.length hsame
  rwa [List.length_map, List.length_map] at hlength

theorem SameHost.count_eq {own other : Text} (hsame : SameHost own other) {d : Char}
    (hd : d.isAlpha = false) : own.count d = other.count d := by
  have hcount : ∀ text : Text, (text.map Char.toLower).count d = text.count d := by
    intro text
    rw [List.count_eq_countP, List.count_eq_countP, List.countP_map]
    apply List.countP_congr
    intro c _
    simp [toLower_eq_iff hd]
  rw [← hcount own, ← hcount other]
  exact congrArg (List.count d) hsame

theorem sameHost_lowerHost (host : Text) : SameHost (Parsed.lowerHost host) host :=
  Parsed.map_toLower_lowerHost host

/-- What stands after the last `@` of the network location. -/
theorem rpartition_parsed (lake : ExternalLake) :
    (rpartition '@' lake.parsed.netloc).2 = lake.netTail.rtakeWhile (· ≠ '@') := by
  rw [rpartition_snd]
  exact rtakeWhile_append_cons (by decide)

/-- The host of a network location without brackets. -/
theorem hostinfo_of_not_mem (hbracket : '[' ∉ lake.netTail.rtakeWhile (· ≠ '@')) :
    lake.parsed.hostinfo.1 = (lake.netTail.rtakeWhile (· ≠ '@')).takeWhile (· ≠ ':') := by
  simp only [Parsed.hostinfo, rpartition_parsed, partition_of_not_mem hbracket, partition_fst]

/-- The host in brackets has one bracket less. -/
theorem count_hostinfo_lt (hbracket : '[' ∈ lake.netTail.rtakeWhile (· ≠ '@')) :
    lake.parsed.hostinfo.1.count '[' < lake.netTail.count '[' := by
  cases hpartition : partition '[' (lake.netTail.rtakeWhile (· ≠ '@')) with
  | mk before after =>
    cases after with
    | none =>
      exfalso
      have hbefore : (partition '[' (lake.netTail.rtakeWhile (· ≠ '@'))).1 =
          (lake.netTail.rtakeWhile (· ≠ '@')).takeWhile (· ≠ '[') := partition_fst
      rw [hpartition, eq_of_partition_none hpartition] at hbefore
      have hself := List.takeWhile_eq_self_iff.mp hbefore.symm '[' hbracket
      exact of_decide_eq_true hself rfl
    | some after =>
      have hhost : lake.parsed.hostinfo.1 = (partition ']' after).1 := by
        simp only [Parsed.hostinfo, rpartition_parsed, hpartition]
      have hsuffix : (lake.netTail.rtakeWhile (· ≠ '@')).count '[' ≤ lake.netTail.count '[' :=
        (List.rtakeWhile_suffix _ _).sublist.count_le _
      have htaken : ((partition ']' after).1).count '[' ≤ after.count '[' := by
        rw [partition_fst]
        exact (List.takeWhile_prefix _).sublist.count_le _
      rw [eq_append_of_partition hpartition, List.count_append, List.count_cons_self] at hsuffix
      rw [hhost]
      omega

/-- The characters that reach the host of a URL as they are. -/
def isHostChar (c : Char) : Bool :=
  isKept c && !endsNetloc c && c ≠ '@' && c ≠ ':' && c ≠ '[' && c ≠ ']'

/-- The network location after the credentials ends in the host, or after the port. -/
theorem netTail_cases (lake : ExternalLake) :
    lake.netTail.length < lake.host.length ∧ lake.netTail <+: lake.host.filter isKept ∨
      (∀ c ∈ lake.host.filter isKept, (!endsNetloc c) = true) ∧
        lake.netTail = lake.host.filter isKept ++ ':' :: lake.portText := by
  have hport : ∀ c ∈ ':' :: lake.portText, (!endsNetloc c) = true := by
    intro c hc
    rcases List.mem_cons.mp hc with hcolon | hdigit
    · rw [hcolon]
      rfl
    · have hne : ∀ d : Char, d.isDigit = false → d ≠ '-' → c ≠ d := by
        intro d hd hminus hsame
        exact not_mem_portText hd hminus (hsame ▸ hdigit)
      simp [endsNetloc, hne '/' rfl (by decide), hne '?' rfl (by decide), hne '#' rfl (by decide)]
  have htail : lake.tail = lake.host.filter isKept ++
      ((':' :: lake.portText) ++ '/' :: lake.database.filter isKept) := rfl
  by_cases hall : ∀ c ∈ lake.host.filter isKept, (!endsNetloc c) = true
  · right
    apply And.intro hall
    unfold ExternalLake.netTail
    rw [htail, List.takeWhile_append_of_pos hall, takeWhile_append_cons rfl,
      List.takeWhile_eq_self_iff.mpr hport]
  · left
    have hshort : ((lake.host.filter isKept).takeWhile (!endsNetloc ·)).length ≠
        (lake.host.filter isKept).length := by
      intro hlength
      apply hall
      exact List.takeWhile_eq_self_iff.mp
        ((List.takeWhile_prefix _).eq_of_length hlength)
    have hnet : lake.netTail = (lake.host.filter isKept).takeWhile (!endsNetloc ·) := by
      unfold ExternalLake.netTail
      rw [htail, List.takeWhile_append, if_neg hshort]
    have hpre : (lake.host.filter isKept).takeWhile (!endsNetloc ·) <+:
        lake.host.filter isKept := List.takeWhile_prefix _
    have hfilter := List.length_filter_le isKept lake.host
    have hless := lt_of_le_of_ne hpre.length_le hshort
    rw [hnet]
    exact ⟨hless.trans_le hfilter, hpre⟩

theorem length_hostname {host : Text} (hname : lake.parsed.hostname = some host) :
    host.length = lake.parsed.hostinfo.1.length ∧ SameHost host lake.parsed.hostinfo.1 := by
  unfold Parsed.hostname at hname
  split at hname
  · cases hname
  · rw [← Option.some_inj.mp hname]
    exact ⟨Parsed.length_lowerHost _, sameHost_lowerHost _⟩

/-- What a host with a `:` or an `@` loses. -/
theorem length_hostinfo_le (hbracket : '[' ∉ lake.netTail.rtakeWhile (· ≠ '@'))
    (htail : lake.netTail = lake.host.filter isKept ++ ':' :: lake.portText) :
    lake.parsed.hostinfo.1.length ≤
      (((lake.host.filter isKept).rtakeWhile (· ≠ '@')).takeWhile (· ≠ ':')).length := by
  have hport : ∀ c ∈ ':' :: lake.portText, decide (c ≠ '@') = true := by
    intro c hc
    apply decide_eq_true
    rcases List.mem_cons.mp hc with hcolon | hdigit
    · rw [hcolon]
      decide
    · intro hat
      exact not_mem_portText (by decide) (by decide) (hat ▸ hdigit)
  rw [hostinfo_of_not_mem hbracket, htail, rtakeWhile_append_of_pos hport,
    takeWhile_append_cons (by decide)]

/-- A host that comes out of the URL as it was has no character of the URL's own. -/
theorem isHostChar_of_hostname {tables : Tables} {host : Text}
    (hname : lake.parsed.hostname = some host) (hsame : SameHost host lake.host)
    (hbrackets : validBrackets tables lake.parsed.netloc = true) :
    lake.host.all isHostChar = true := by
  obtain ⟨hlength, hinfo⟩ := length_hostname hname
  have hhost : lake.parsed.hostinfo.1.length = lake.host.length := by
    rw [← hlength, hsame.length_eq]
  have hcount : lake.parsed.hostinfo.1.count '[' = lake.host.count '[' := by
    rw [← hinfo.count_eq rfl, hsame.count_eq rfl]
  have hkept : (lake.host.filter isKept).count '[' ≤ lake.host.count '[' :=
    List.filter_sublist.count_le _
  have hlengthKept := List.length_filter_le isKept lake.host
  have hbracket : '[' ∉ lake.netTail.rtakeWhile (· ≠ '@') := by
    intro hbracket
    have hless := count_hostinfo_lt hbracket
    rcases netTail_cases lake with ⟨-, hpre⟩ | ⟨-, htail⟩
    · have hnet := hpre.sublist.count_le '['
      omega
    · have hport : lake.portText.count '[' = 0 :=
        List.count_eq_zero.mpr (not_mem_portText (by decide) (by decide))
      rw [htail, List.count_append, List.count_cons_of_ne (by decide), hport] at hless
      omega
  rcases netTail_cases lake with ⟨hshort, -⟩ | ⟨hnetloc, htail⟩
  · exfalso
    have htaken : lake.parsed.hostinfo.1.length ≤ lake.netTail.length := by
      rw [hostinfo_of_not_mem hbracket]
      exact (List.takeWhile_prefix _).length_le.trans length_rtakeWhile_le
    omega
  · -- Nothing has been dropped, so no character is one that would have been.
    have hle := length_hostinfo_le hbracket htail
    have hcolon := List.takeWhile_prefix (· ≠ ':')
      (l := (lake.host.filter isKept).rtakeWhile (· ≠ '@'))
    have hat := List.rtakeWhile_suffix (· ≠ '@') (lake.host.filter isKept)
    have hcolonLength := hcolon.length_le
    have hatLength := hat.length_le
    have hfilter : lake.host.filter isKept = lake.host :=
      List.filter_sublist.eq_of_length (by omega)
    rw [hfilter] at hcolon hat hcolonLength hatLength hle hnetloc htail
    have hwhole := hat.eq_of_length (by omega)
    rw [hwhole] at hcolon hle
    rw [hhost] at hle
    have hself := hcolon.eq_of_length (hcolon.length_le.antisymm hle)
    have hnoAt := List.rtakeWhile_eq_self_iff.mp hwhole
    have hnoColon := List.takeWhile_eq_self_iff.mp hself
    have hopening : '[' ∉ lake.host := by
      intro hmem
      apply hbracket
      have hport : ∀ c ∈ ':' :: lake.portText, decide (c ≠ '@') = true := by
        intro c hc
        apply decide_eq_true
        intro hat
        rcases List.mem_cons.mp hc with hcolon | hdigit
        · rw [hat] at hcolon
          cases hcolon
        · exact not_mem_portText (by decide) (by decide) (hat ▸ hdigit)
      rw [htail, rtakeWhile_append_of_pos hport, hwhole]
      exact List.mem_append_left _ hmem
    have hclosing : ']' ∉ lake.host := by
      intro hmem
      have hclose : lake.parsed.netloc.contains ']' = true := by
        rw [List.contains_iff_mem]
        show ']' ∈ lake.credentials ++ '@' :: lake.netTail
        rw [htail]
        simp [hmem]
      have hopen : lake.parsed.netloc.contains '[' = false := by
        have hcredentials : '[' ∉ lake.credentials := not_mem_credentials (by decide) (by decide)
        have hport : '[' ∉ lake.portText := not_mem_portText (by decide) (by decide)
        rw [← Bool.not_eq_true, List.contains_iff_mem]
        show '[' ∉ lake.credentials ++ '@' :: lake.netTail
        rw [htail]
        simp [hopening, hcredentials, hport]
      rw [validBrackets, hopen, hclose] at hbrackets
      cases hbrackets
    rw [List.all_eq_true]
    intro c hc
    have hkeptChar := List.filter_eq_self.mp hfilter c hc
    have hatChar := of_decide_eq_true (hnoAt c hc)
    have hcolonChar := of_decide_eq_true (hnoColon c hc)
    have hopen : c ≠ '[' := fun hsame => hopening (hsame ▸ hc)
    have hclose : c ≠ ']' := fun hsame => hclosing (hsame ▸ hc)
    simp [isHostChar, hkeptChar, hnetloc c hc, hatChar, hcolonChar, hopen, hclose]

end DbtCraft.Ingest.Lakehouse

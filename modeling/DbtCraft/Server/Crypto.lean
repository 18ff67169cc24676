/-
# Secrets between the two services

`src/server/crypto.ts` of the web app beside `app/core/crypto.py`: who reads what the other has
written. The web app takes everything without its prefix for plaintext, the runner everything
but sealed secrets and tokens.
-/

import DbtCraft.Core.Crypto

namespace DbtCraft.Server.Crypto

open DbtCraft.Python DbtCraft.Core.Crypto
open DbtCraft.Python.Url

variable (ciphers : Ciphers) (material : Text)

/-- `encryptSecret`. -/
def encryptSecret (iv : List UInt8) (secret : Text) : Except Failure Text :=
  if secret = [] then .error (.refused "Cannot encrypt an empty secret")
  else (keyBytes ciphers material).map fun key =>
    let sealed := ciphers.gcmEncrypt key iv (utf8 secret)
    aesGcmPrefix ++ ciphers.b64encode iv ++ ':' :: ciphers.b64encode (sealed.1 ++ sealed.2)

/-- `decryptSecret` behind the format: the initialization vector and the payload. -/
def openPayload (iv payload : List UInt8) : Except Failure Text :=
  if payload.length < 17 then .error (.refused "Encrypted secret payload is invalid")
  else
    match keyBytes ciphers material with
    | .error failure => .error failure
    | .ok key =>
      match ciphers.gcmDecrypt key iv (payload.take (payload.length - 16))
        (payload.drop (payload.length - 16)) with
      | some data => .ok (decodeReplacing data.length data)
      | none => .error .raised

/-- `decryptSecret`. -/
def decryptSecret (value : Option Text) : Except Failure Text :=
  match value with
  | none | some [] => .ok []
  | some (c :: rest) =>
    if aesGcmPrefix.isPrefixOf (c :: rest) then
      match split ':' (c :: rest) with
      | _ :: _ :: iv :: payload :: _ =>
        if iv = [] ∨ payload = [] then .error (.refused "Encrypted secret has invalid format")
        else openPayload ciphers material (ciphers.bufferFrom iv) (ciphers.bufferFrom payload)
      | _ => .error (.refused "Encrypted secret has invalid format")
    else .ok (c :: rest)

/-! ## The property -/

inductive Writer
  | /-- `encryptSecret`. -/
    web
  | /-- `encrypt_secret`. -/
    runner
  | /-- `encrypt_secret_v1`. -/
    runnerV1
  deriving DecidableEq

inductive Reader
  | /-- `decryptSecret`. -/
    web
  | /-- `decrypt_secret`. -/
    runner
  | /-- `decrypt_secret_or_plaintext`. -/
    runnerOrPlaintext
  deriving DecidableEq

/-- What a writer returns, with twelve random bytes. -/
def Writer.write (nonce : Nonce) (secret : Text) : Writer → Except Failure Text
  | .web => encryptSecret ciphers material nonce.bytes secret
  | .runner => Core.Crypto.encryptSecret ciphers material nonce.bytes secret
  | .runnerV1 => encryptSecretV1 ciphers material nonce.bytes secret

/-- What a reader makes of a ciphertext. -/
def Reader.read (ciphertext : Text) : Reader → Except Failure Text
  | .web => decryptSecret ciphers material (some ciphertext)
  | .runner => Core.Crypto.decryptSecret ciphers material ciphertext
  | .runnerOrPlaintext => decryptSecretOrPlaintext ciphers material (some ciphertext)

/-- The reader has to read what the writer has written, and may not fail: a service what it has
written itself, and what the two of them exchange. -/
def MustRead : Writer → Reader → Bool
  | .web, .web | .web, .runnerOrPlaintext => true
  | .runner, .runner | .runner, .runnerOrPlaintext => true
  | .runnerV1, .runner | .runnerV1, .runnerOrPlaintext | .runnerV1, .web => true
  | .web, .runner | .runner, .web => false

/-- The secret is written, and comes back; where it need not come back, the reader may fail, but
never takes something else for the secret. -/
def Keeps (nonce : Nonce) (writer : Writer) (reader : Reader) (secret : Text) : Prop :=
  ∃ ciphertext, writer.write ciphers material nonce secret = .ok ciphertext ∧
    (reader.read ciphers material ciphertext = .ok secret ∨
      MustRead writer reader = false ∧ ∃ failure,
        reader.read ciphers material ciphertext = .error failure)

/-! ## Sealed secrets -/

variable {ciphers : Ciphers} {material secret : Text}

/-- The pieces of a sealed secret. -/
theorem split_sealedText (key nonce : List UInt8) (secret : Text) :
    split ':' (sealedText ciphers key nonce secret) =
      [['v', '1'], ['g', 'c', 'm'], ciphers.b64encode nonce,
        ciphers.b64encode ((ciphers.gcmEncrypt key nonce (utf8 secret)).1 ++
          (ciphers.gcmEncrypt key nonce (utf8 secret)).2)] := by
  rw [sealedText_eq, split_append (by decide), split_append (by decide),
    split_append (ciphers.isBase64 nonce), split_of_not_mem (ciphers.isBase64 _)]

/-- The payload of one byte or more is long enough. -/
theorem openPayload_gcmEncrypt (hmaterial : material ≠ []) (hsecret : secret ≠ [])
    (nonce : List UInt8) : openPayload ciphers material nonce
      ((ciphers.gcmEncrypt (ciphers.sha256 (utf8 material)) nonce (utf8 secret)).1 ++
        (ciphers.gcmEncrypt (ciphers.sha256 (utf8 material)) nonce (utf8 secret)).2) =
      .ok secret := by
  have hbytes : 0 < (utf8 secret).length := List.length_pos_of_ne_nil (utf8_ne_nil hsecret)
  have hlength := ciphers.length_data (ciphers.sha256 (utf8 material)) nonce (utf8 secret)
  have htag := ciphers.length_tag (ciphers.sha256 (utf8 material)) nonce (utf8 secret)
  have hdecoded : decodeReplacing (utf8 secret).length (utf8 secret) = secret :=
    decodeReplacing_encode (length_le_encode secret)
  generalize hsealed :
    ciphers.gcmEncrypt (ciphers.sha256 (utf8 material)) nonce (utf8 secret) = sealed at *
  have hlong : ¬ (sealed.1 ++ sealed.2).length < 17 := by
    rw [List.length_append]
    omega
  have hcut : (sealed.1 ++ sealed.2).length - 16 = sealed.1.length := by
    rw [List.length_append, htag, Nat.add_sub_cancel]
  have hopen := ciphers.gcmDecrypt_gcmEncrypt (ciphers.sha256 (utf8 material)) nonce (utf8 secret)
  rw [hsealed] at hopen
  rw [openPayload, if_neg hlong, keyBytes_of_ne_nil hmaterial]
  dsimp only
  rw [hcut, List.take_left, List.drop_left, hopen]
  exact congrArg Except.ok hdecoded

/-- The web app reads a sealed secret. -/
theorem decryptSecret_sealedText (hmaterial : material ≠ []) (hsecret : secret ≠ [])
    (nonce : Nonce) : decryptSecret ciphers material
      (some (sealedText ciphers (ciphers.sha256 (utf8 material)) nonce.bytes secret)) =
      .ok secret := by
  have hnonce : nonce.bytes ≠ [] := fun hnil => by
    have hlength := nonce.length_eq
    rw [hnil] at hlength
    cases hlength
  have hparts := @split_sealedText ciphers (ciphers.sha256 (utf8 material)) nonce.bytes secret
  have hstart :=
    @isPrefixOf_sealedText ciphers (ciphers.sha256 (utf8 material)) nonce.bytes secret
  cases htext : sealedText ciphers (ciphers.sha256 (utf8 material)) nonce.bytes secret with
  | nil =>
    rw [htext] at hstart
    cases hstart
  | cons c rest =>
    rw [htext] at hparts hstart
    rw [decryptSecret, if_pos hstart, hparts]
    dsimp only
    rw [if_neg, ciphers.bufferFrom_b64encode, ciphers.bufferFrom_b64encode]
    · exact openPayload_gcmEncrypt hmaterial hsecret nonce.bytes
    · refine not_or.mpr ⟨ciphers.b64encode_ne_nil _ hnonce, ciphers.b64encode_ne_nil _ ?_⟩
      intro hnil
      have htag := ciphers.length_tag (ciphers.sha256 (utf8 material)) nonce.bytes (utf8 secret)
      rw [(List.append_eq_nil_iff.mp hnil).2] at htag
      cases htag

/-- Every reader reads a sealed secret. -/
theorem read_sealedText (hmaterial : material ≠ []) (hsecret : secret ≠ []) (nonce : Nonce)
    (reader : Reader) : reader.read ciphers material
      (sealedText ciphers (ciphers.sha256 (utf8 material)) nonce.bytes secret) = .ok secret := by
  cases reader with
  | web => exact decryptSecret_sealedText hmaterial hsecret nonce
  | runner => exact Core.Crypto.decryptSecret_sealedText hmaterial nonce.bytes secret
  | runnerOrPlaintext =>
    exact (decryptSecretOrPlaintext_of_mark (.inl (isPrefixOf_sealedText _ _ _))).trans
      (Core.Crypto.decryptSecret_sealedText hmaterial nonce.bytes secret)

/-! ## Tokens -/

/-- The web app takes a token for plaintext. -/
theorem decryptSecret_token {token : Text} (htoken : "gAAAAA".toList <+: token) :
    decryptSecret ciphers material (some token) = .ok token := by
  obtain ⟨rest, rfl⟩ := htoken
  rfl

/-- A token is longer than what it was made of. -/
theorem token_ne (key seed : List UInt8) (secret : Text) :
    ciphers.fernetEncrypt key seed (utf8 secret) ≠ secret := by
  intro hsame
  have hlonger := ciphers.length_token key seed (utf8 secret)
  have hencoded : secret.length ≤ (utf8 secret).length :=
    length_le_encode secret
  rw [hsame] at hlonger
  omega

/-- **The secret is kept** between every writer and every reader but one: the web app takes a
token that the runner has written for the secret itself. -/
theorem keeps_iff (ciphers : Ciphers) (material secret : { text : Text // text ≠ [] })
    (nonce : Nonce) (writer : Writer) (reader : Reader) :
    Keeps ciphers material nonce writer reader secret ↔
      ¬ (writer = .runner ∧ reader = .web) := by
  obtain ⟨material, hmaterial⟩ := material
  obtain ⟨secret, hsecret⟩ := secret
  have hkey : keyBytes ciphers material = .ok (ciphers.sha256 (utf8 material)) :=
    keyBytes_of_ne_nil hmaterial
  have hsealed : Keeps ciphers material nonce .web reader secret ∧
      Keeps ciphers material nonce .runnerV1 reader secret := by
    have hread := @read_sealedText ciphers material secret hmaterial hsecret nonce reader
    refine ⟨⟨_, ?_, .inl hread⟩, ⟨_, ?_, .inl hread⟩⟩
    · rw [Writer.write, encryptSecret, if_neg hsecret, hkey]
      rfl
    · rw [Writer.write, encryptSecretV1, if_neg hsecret, hkey]
      rfl
  have htoken : Writer.runner.write ciphers material nonce secret = .ok
      (ciphers.fernetEncrypt (ciphers.sha256 (utf8 material)) nonce.bytes (utf8 secret)) := by
    rw [Writer.write, Core.Crypto.encryptSecret, if_neg hsecret, hkey]
    rfl
  have hstart := ciphers.isToken (ciphers.sha256 (utf8 material)) nonce.bytes (utf8 secret)
  have hread := @decryptSecret_fernetEncrypt ciphers material hmaterial nonce.bytes secret
  cases writer with
  | web => exact iff_of_true hsealed.1 nofun
  | runnerV1 => exact iff_of_true hsealed.2 nofun
  | runner =>
    cases reader with
    | runner => exact iff_of_true ⟨_, htoken, .inl hread⟩ nofun
    | runnerOrPlaintext =>
      refine iff_of_true ⟨_, htoken, .inl ?_⟩ nofun
      exact (decryptSecretOrPlaintext_of_mark
        (.inr (List.isPrefixOf_iff_prefix.mpr hstart))).trans hread
    | web =>
      refine iff_of_false ?_ fun hother => hother ⟨rfl, rfl⟩
      rintro ⟨ciphertext, hwritten, hkept⟩
      obtain rfl := Except.ok.inj (htoken.symm.trans hwritten)
      have hplain : Reader.web.read ciphers material _ = _ := decryptSecret_token hstart
      rw [hplain] at hkept
      rcases hkept with hsame | ⟨-, failure, hfailure⟩
      · exact token_ne _ _ _ (Except.ok.inj hsame)
      · cases hfailure

/-! ## A token in the web app -/

/-- The bytes are read back from their hexadecimal digits. -/
theorem unquoteToBytes_quoted (data : List UInt8) :
    unquoteToBytes (data.flatMap quoteByte) = data := by
  have hread := unquoteToBytes_quoteBytes data []
  rwa [List.append_nil, unquoteToBytes, List.append_nil] at hread

theorem length_quoted (data : List UInt8) : (data.flatMap quoteByte).length = 3 * data.length := by
  induction data with
  | nil => rfl
  | cons byte data ih =>
    rw [List.flatMap_cons, List.length_append, ih, List.length_cons, quoteByte]
    simp only [List.length_cons, List.length_nil]
    omega

theorem not_mem_quoted (data : List UInt8) : ':' ∉ data.flatMap quoteByte := by
  have hdigit : ∀ digit < 16, hexDigit digit ≠ ':' := by decide
  intro hmem
  obtain ⟨byte, -, hbyte⟩ := List.mem_flatMap.mp hmem
  have hsmall := byte.toNat_lt
  have hhigh := hdigit (byte.toNat / 16) (by omega)
  have hlow := hdigit (byte.toNat % 16) (by omega)
  simp [quoteByte, hhigh.symm, hlow.symm] at hbyte

/-- Ciphers with the lengths and the marks of the real ones, that hide nothing. -/
def openCiphers : Ciphers where
  sha256 := id
  gcmEncrypt _ _ data := (data, List.replicate 16 0)
  gcmDecrypt _ _ data tag := if tag = List.replicate 16 0 then some data else none
  fernetEncrypt _ _ data := tokenStart ++ data.flatMap quoteByte
  fernetDecrypt _ token :=
    if tokenStart.isPrefixOf token then some (unquoteToBytes (token.drop 6)) else none
  b64encode data := data.flatMap quoteByte
  b64decode text := some (unquoteToBytes text)
  bufferFrom := unquoteToBytes
  gcmDecrypt_gcmEncrypt _ _ data := if_pos rfl
  length_data _ _ _ := rfl
  length_tag _ _ _ := List.length_replicate
  fernetDecrypt_fernetEncrypt _ _ data := congrArg some (unquoteToBytes_quoted data)
  isToken _ _ _ := List.prefix_append _ _
  length_token _ _ data := by
    rw [List.length_append, length_quoted]
    exact Nat.lt_of_lt_of_le (Nat.lt_add_of_pos_left (by decide))
      (Nat.add_le_add_left (Nat.le_mul_of_pos_left _ (by decide)) _)
  b64decode_b64encode data := congrArg some (unquoteToBytes_quoted data)
  bufferFrom_b64encode := unquoteToBytes_quoted
  isBase64 := not_mem_quoted
  b64encode_ne_nil data hdata hnil := by
    have hlength := length_quoted data
    rw [hnil] at hlength
    exact hdata (List.length_eq_zero_iff.mp (by simpa using hlength.symm))

def zeroNonce : Nonce := ⟨List.replicate 12 0, rfl⟩

/-- The web app sends the token of a stored secret in place of the secret. -/
theorem not_keeps_token : ¬ ∀ ciphers (material secret : { text : Text // text ≠ [] }) nonce writer
    reader, Keeps ciphers material nonce writer reader secret := by
  intro h
  obtain ⟨ciphertext, hwritten, hkept⟩ := h openCiphers ⟨['k'], List.cons_ne_nil _ _⟩
    ⟨['x'], List.cons_ne_nil _ _⟩ zeroNonce .runner .web
  cases hwritten
  rcases hkept with hsame | ⟨-, failure, hfailure⟩
  · cases hsame
  · cases hfailure

end DbtCraft.Server.Crypto

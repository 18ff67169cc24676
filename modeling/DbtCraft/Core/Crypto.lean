/-
# Encrypted secrets

`app/core/crypto.py`: AES-GCM behind a prefix, the older Fernet tokens, and a plaintext that is
neither. What the libraries compute is a parameter, with what is relied on of them.
-/

import DbtCraft.Python.Splitting
import DbtCraft.Python.Unquote

namespace DbtCraft.Core.Crypto

open DbtCraft.Python

abbrev Text := List Char

/-- `text.encode("utf-8")`. -/
def utf8 (text : Text) : List UInt8 := text.flatMap String.utf8EncodeChar

/-- `data.decode("utf-8")`. -/
def decodeUtf8 (data : List UInt8) : Option Text :=
  (String.fromUTF8? data.toByteArray).map String.toList

/-- SHA-256, AES-256-GCM, Fernet and base64, which both services use. -/
structure Ciphers where
  sha256 : List UInt8 → List UInt8
  /-- The encrypted bytes and their tag, by the key and the nonce. -/
  gcmEncrypt : List UInt8 → List UInt8 → List UInt8 → List UInt8 × List UInt8
  /-- The bytes that were encrypted, unless the tag is not theirs. -/
  gcmDecrypt : List UInt8 → List UInt8 → List UInt8 → List UInt8 → Option (List UInt8)
  /-- `Fernet(key).encrypt(data)`, with what the token is made from besides. -/
  fernetEncrypt : List UInt8 → List UInt8 → List UInt8 → Text
  /-- `Fernet(key).decrypt(token)`; `none` is an `InvalidToken`. -/
  fernetDecrypt : List UInt8 → Text → Option (List UInt8)
  /-- `base64.b64encode(data)`, and `data.toString('base64')`. -/
  b64encode : List UInt8 → Text
  /-- `base64.b64decode(text)`. -/
  b64decode : Text → Option (List UInt8)
  /-- `Buffer.from(text, 'base64')`. -/
  bufferFrom : Text → List UInt8
  gcmDecrypt_gcmEncrypt : ∀ key nonce data, gcmDecrypt key nonce (gcmEncrypt key nonce data).1
    (gcmEncrypt key nonce data).2 = some data
  length_data : ∀ key nonce data, (gcmEncrypt key nonce data).1.length = data.length
  length_tag : ∀ key nonce data, (gcmEncrypt key nonce data).2.length = 16
  fernetDecrypt_fernetEncrypt : ∀ key seed data,
    fernetDecrypt key (fernetEncrypt key seed data) = some data
  /-- A token begins with its version and the upper half of a time. -/
  isToken : ∀ key seed data, "gAAAAA".toList <+: fernetEncrypt key seed data
  length_token : ∀ key seed data, data.length < (fernetEncrypt key seed data).length
  b64decode_b64encode : ∀ data, b64decode (b64encode data) = some data
  bufferFrom_b64encode : ∀ data, bufferFrom (b64encode data) = data
  isBase64 : ∀ data, ':' ∉ b64encode data
  b64encode_ne_nil : ∀ data, data ≠ [] → b64encode data ≠ []

/-- What raises: the error of the module, or one of a library. -/
inductive Failure
  | refused (message : String)
  | raised

/-- `AES_GCM_PREFIX`. -/
def aesGcmPrefix : Text := "v1:gcm:".toList

/-- How a token begins. -/
def tokenStart : Text := "gAAAAA".toList

/-- Twelve random bytes. -/
structure Nonce where
  bytes : List UInt8
  length_eq : bytes.length = 12

variable (ciphers : Ciphers) (material : Text)

/-- `_key_bytes`. -/
def keyBytes : Except Failure (List UInt8) :=
  if material = [] then
    .error (.refused "APP_ENCRYPTION_KEY is required for encrypted secrets")
  else .ok (ciphers.sha256 (utf8 material))

/-- `encrypt_secret`. -/
def encryptSecret (seed : List UInt8) (secret : Text) : Except Failure Text :=
  if secret = [] then .error (.refused "Cannot encrypt an empty secret")
  else (keyBytes ciphers material).map fun key => ciphers.fernetEncrypt key seed (utf8 secret)

/-- `encrypt_secret_v1`. -/
def encryptSecretV1 (nonce : List UInt8) (secret : Text) : Except Failure Text :=
  if secret = [] then .error (.refused "Cannot encrypt an empty secret")
  else (keyBytes ciphers material).map fun key =>
    let sealed := ciphers.gcmEncrypt key nonce (utf8 secret)
    aesGcmPrefix ++ ciphers.b64encode nonce ++ ':' :: ciphers.b64encode (sealed.1 ++ sealed.2)

/-- `AESGCM(key).decrypt(nonce, payload, None)`: the tag stands at the end. -/
def aesGcmDecrypt (key nonce payload : List UInt8) : Option (List UInt8) :=
  if payload.length < 16 then none
  else ciphers.gcmDecrypt key nonce (payload.take (payload.length - 16))
    (payload.drop (payload.length - 16))

/-- What stands in the `try` of `decrypt_secret`; `none` raises. -/
def openSealed (ciphertext : Text) : Option Text :=
  match splitMax ':' 3 ciphertext, keyBytes ciphers material with
  | [_, _, nonce, payload], .ok key =>
    match ciphers.b64decode nonce, ciphers.b64decode payload with
    | some nonce, some payload => (aesGcmDecrypt ciphers key nonce payload).bind decodeUtf8
    | _, _ => none
  | _, _ => none

def notDecrypted : Failure := .refused "Encrypted secret cannot be decrypted"

/-- `decrypt_secret`. -/
def decryptSecret (ciphertext : Text) : Except Failure Text :=
  if aesGcmPrefix.isPrefixOf ciphertext then
    match openSealed ciphers material ciphertext with
    | some secret => .ok secret
    | none => .error notDecrypted
  else
    match keyBytes ciphers material with
    | .error failure => .error failure
    | .ok key =>
      match ciphers.fernetDecrypt key ciphertext with
      | none => .error notDecrypted
      | some data =>
        match decodeUtf8 data with
        | some secret => .ok secret
        | none => .error .raised

/-- `decrypt_secret_or_plaintext`. -/
def decryptSecretOrPlaintext (value : Option Text) : Except Failure Text :=
  match value with
  | none | some [] => .ok []
  | some (c :: rest) =>
    if aesGcmPrefix.isPrefixOf (c :: rest) ∨ tokenStart.isPrefixOf (c :: rest) then
      decryptSecret ciphers material (c :: rest)
    else .ok (c :: rest)

/-! ## What is encrypted is read -/

variable {ciphers : Ciphers} {material : Text}

theorem decodeUtf8_utf8 (text : Text) : decodeUtf8 (utf8 text) = some text := by
  have hbytes : (utf8 text).toByteArray = (String.ofList text).toByteArray := rfl
  rw [decodeUtf8, hbytes, String.fromUTF8?, dif_pos (String.ofList text).isValidUTF8]
  exact congrArg some String.toList_ofList

theorem utf8_ne_nil {text : Text} (htext : text ≠ []) : utf8 text ≠ [] := by
  intro hnil
  exact htext (Option.some.inj ((decodeUtf8_utf8 text).symm.trans (hnil ▸ decodeUtf8_utf8 [])))

theorem keyBytes_of_ne_nil (hmaterial : material ≠ []) :
    keyBytes ciphers material = .ok (ciphers.sha256 (utf8 material)) := if_neg hmaterial

/-- A sealed secret, between its marks. -/
def sealedText (ciphers : Ciphers) (key nonce : List UInt8) (secret : Text) : Text :=
  let sealed := ciphers.gcmEncrypt key nonce (utf8 secret)
  aesGcmPrefix ++ ciphers.b64encode nonce ++ ':' :: ciphers.b64encode (sealed.1 ++ sealed.2)

theorem isPrefixOf_sealedText (key nonce : List UInt8) (secret : Text) :
    aesGcmPrefix.isPrefixOf (sealedText ciphers key nonce secret) = true := by
  rw [List.isPrefixOf_iff_prefix, sealedText, List.append_assoc]
  exact List.prefix_append _ _

theorem sealedText_eq (key nonce : List UInt8) (secret : Text) :
    sealedText ciphers key nonce secret = ['v', '1'] ++ ':' :: (['g', 'c', 'm'] ++
      ':' :: (ciphers.b64encode nonce ++ ':' :: ciphers.b64encode
        ((ciphers.gcmEncrypt key nonce (utf8 secret)).1 ++
          (ciphers.gcmEncrypt key nonce (utf8 secret)).2))) := rfl

/-- The pieces of a sealed secret. -/
theorem splitMax_sealedText (key nonce : List UInt8) (secret : Text) :
    splitMax ':' 3 (sealedText ciphers key nonce secret) =
      [['v', '1'], ['g', 'c', 'm'], ciphers.b64encode nonce,
        ciphers.b64encode ((ciphers.gcmEncrypt key nonce (utf8 secret)).1 ++
          (ciphers.gcmEncrypt key nonce (utf8 secret)).2)] := by
  rw [sealedText_eq, splitMax_append (by decide), splitMax_append (by decide),
    splitMax_append (ciphers.isBase64 nonce), splitMax]

theorem aesGcmDecrypt_gcmEncrypt (key nonce data : List UInt8) :
    aesGcmDecrypt ciphers key nonce ((ciphers.gcmEncrypt key nonce data).1 ++
      (ciphers.gcmEncrypt key nonce data).2) = some data := by
  have hlength : ((ciphers.gcmEncrypt key nonce data).1 ++
      (ciphers.gcmEncrypt key nonce data).2).length - 16 =
      (ciphers.gcmEncrypt key nonce data).1.length := by
    rw [List.length_append, ciphers.length_tag, Nat.add_sub_cancel]
  have hlong : ¬ ((ciphers.gcmEncrypt key nonce data).1 ++
      (ciphers.gcmEncrypt key nonce data).2).length < 16 := by
    rw [List.length_append, ciphers.length_tag]
    omega
  rw [aesGcmDecrypt, if_neg hlong, hlength, List.take_left, List.drop_left,
    ciphers.gcmDecrypt_gcmEncrypt]

theorem openSealed_sealedText (hmaterial : material ≠ []) (nonce : List UInt8) (secret : Text) :
    openSealed ciphers material
      (sealedText ciphers (ciphers.sha256 (utf8 material)) nonce secret) = some secret := by
  rw [openSealed, splitMax_sealedText, keyBytes_of_ne_nil hmaterial]
  simp only [ciphers.b64decode_b64encode, aesGcmDecrypt_gcmEncrypt, Option.bind_some,
    decodeUtf8_utf8]

/-- A sealed secret is read with and without plaintext. -/
theorem decryptSecret_sealedText (hmaterial : material ≠ []) (nonce : List UInt8) (secret : Text) :
    decryptSecret ciphers material
      (sealedText ciphers (ciphers.sha256 (utf8 material)) nonce secret) = .ok secret := by
  rw [decryptSecret, if_pos (isPrefixOf_sealedText _ _ _), openSealed_sealedText hmaterial]

/-- A token is read with and without plaintext. -/
theorem decryptSecret_fernetEncrypt (hmaterial : material ≠ []) (seed : List UInt8)
    (secret : Text) : decryptSecret ciphers material
      (ciphers.fernetEncrypt (ciphers.sha256 (utf8 material)) seed (utf8 secret)) = .ok secret := by
  have hstart : ¬ aesGcmPrefix.isPrefixOf
      (ciphers.fernetEncrypt (ciphers.sha256 (utf8 material)) seed (utf8 secret)) = true := by
    intro hsealed
    obtain ⟨rest, hrest⟩ := ciphers.isToken (ciphers.sha256 (utf8 material)) seed (utf8 secret)
    obtain ⟨more, hmore⟩ := List.isPrefixOf_iff_prefix.mp hsealed
    cases (List.cons.inj (hmore.trans hrest.symm)).1
  rw [decryptSecret, if_neg hstart, keyBytes_of_ne_nil hmaterial]
  simp only [ciphers.fernetDecrypt_fernetEncrypt, decodeUtf8_utf8]

theorem decryptSecretOrPlaintext_of_mark {value : Text}
    (hmark : aesGcmPrefix.isPrefixOf value = true ∨ tokenStart.isPrefixOf value = true) :
    decryptSecretOrPlaintext ciphers material (some value) =
      decryptSecret ciphers material value := by
  cases value with
  | nil => exact hmark.elim nofun nofun
  | cons c rest => exact if_pos hmark

end DbtCraft.Core.Crypto

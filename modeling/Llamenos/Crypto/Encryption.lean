import Llamenos.Crypto.Events
import Llamenos.Crypto.Hpke

/-!
# Messages for several readers

`encrypt_message` and `decrypt_message` of `encryption.rs`. A message is encrypted once, under a
key drawn for it; the key is wrapped for each reader with HPKE, and each envelope bears the public
key it was given, as a text. A reader's envelope is the last one whose text denotes the same bytes.

Results:
* `hpkeUnwrapKey_wrapped`: unwrapping what was wrapped is the HPKE call with the reader's key.
* `aes256gcmDecrypt_encrypt`: a packet opens under its key and associated data.
* `encryptMessage_spec`: what an encrypted message is made of, and when there is none.
* `decryptMessage_opens`, `decryptMessage_refuses`: who opens a message through its envelopes.
* `encryptMessage_onlyForReaders`: **whatever the readers, each one's secret key opens the message
  through its own envelope, and the key of nobody else does**.
-/

namespace Llamenos.Crypto.Encryption

open Llamenos.Lib Llamenos.Lib.Outcome Llamenos.Crypto.Events

/-! ## The code -/

def labelMessage : String := "llamenos:message"

/-- `KeyEnvelope`. -/
structure KeyEnvelope where
  enc : String
  ct : String

/-- `RecipientKeyEnvelope`. -/
structure RecipientKeyEnvelope where
  pubkey : String
  enc : String
  ct : String

/-- `EncryptedMessage`. -/
structure EncryptedMessage where
  encryptedContent : String
  readerEnvelopes : List RecipientKeyEnvelope

/-- What one `encrypt_message` draws: the message key, the nonce, and a key for each envelope. -/
structure MessageDraws where
  messageKey : U8Array 32
  nonce : U8Array 12
  ephemerals : Nat → U8Array 32

/-- `ct_hex_eq`. -/
def ctHexEq (a b : String) : Bool :=
  match hexDecode a, hexDecode b with
  | .ok aBytes, .ok bBytes => decide (aBytes = bBytes)
  | _, _ => false

/-- The associated data of a wrapped key. -/
def keyWrapAad (label : String) : Bytes := asBytes s!"{label}:key-wrap"

/-- `hpke_wrap_key`. -/
def hpkeWrapKey (hpke : Hpke) (ephemeral key : U8Array 32) (recipientPubkeyHex label : String) :
    Call KeyEnvelope := do
  let envelope ← hpkeSealKey hpke ephemeral key recipientPubkeyHex label (keyWrapAad label)
  let encBytes ← mapErr (fun e => .invalidFormat s!"invalid base64url enc: {e.display}")
    (Base64.decode envelope.enc)
  let ctBytes ← mapErr (fun e => .invalidFormat s!"invalid base64url ct: {e.display}")
    (Base64.decode envelope.ct)
  pure
    { enc := hexEncode encBytes
      ct := hexEncode ctBytes }

/-- `hpke_unwrap_key`. -/
def hpkeUnwrapKey (hpke : Hpke) (envelope : KeyEnvelope) (secretKeyHex label : String) :
    Call (U8Array 32) := do
  let encBytes ← mapErr .hexError (hexDecode envelope.enc)
  let ctBytes ← mapErr .hexError (hexDecode envelope.ct)
  let labelId ← okOr (.invalidInput s!"unknown crypto label: {label}") (labelToId label)
  let hpkeEnv : HpkeEnvelope :=
    { v := 3
      labelId
      enc := Base64.encode encBytes
      ct := Base64.encode ctBytes }
  hpkeOpenKey hpke hpkeEnv secretKeyHex label (keyWrapAad label)

/-- `aes256gcm_encrypt`. -/
def aes256gcmEncrypt (aead : Aes256Gcm) (nonce : U8Array 12) (key : U8Array 32)
    (plaintext aad : Bytes) : Call Bytes := do
  let cipher ← mapErr .encryptionFailed (aes256GcmNew key.bytes)
  let ciphertext ← mapErr .encryptionFailed (aead.encrypt cipher nonce plaintext aad)
  pure (nonce.bytes ++ ciphertext)

/-- `aes256gcm_decrypt`. -/
def aes256gcmDecrypt (aead : Aes256Gcm) (key : U8Array 32) (packed aad : Bytes) : Call Bytes :=
  if packed.length < 28 then .err .invalidCiphertext
  else do
    let nonceBytes ← slice packed 0 12
    let nonce ← U8Array.fromSlice 12 nonceBytes
    let cipher ← mapErr .encryptionFailed (aes256GcmNew key.bytes)
    let msg ← slice packed 12 packed.length
    okOr .decryptionFailed (aead.decrypt cipher nonce msg aad)

/-- The envelope of one reader, in `encrypt_message`. -/
def readerEnvelope (hpke : Hpke) (draws : MessageDraws) (reader : String × Nat) :
    Call RecipientKeyEnvelope := do
  let (pk, i) := reader
  let env ← hpkeWrapKey hpke (draws.ephemerals i) draws.messageKey pk labelMessage
  pure
    { pubkey := pk
      enc := env.enc
      ct := env.ct }

/-- `encrypt_message`. -/
def encryptMessage (hpke : Hpke) (aead : Aes256Gcm) (draws : MessageDraws) (plaintext : String)
    (readerPubkeys : List String) : Call EncryptedMessage := do
  let packed ← aes256gcmEncrypt aead draws.nonce draws.messageKey (asBytes plaintext)
    (asBytes labelMessage)
  let readerEnvelopes ← readerPubkeys.zipIdx.mapM (readerEnvelope hpke draws)
  pure
    { encryptedContent := hexEncode packed
      readerEnvelopes }

/-- `decrypt_message`. -/
def decryptMessage (hpke : Hpke) (aead : Aes256Gcm) (encryptedContent : String)
    (readerEnvelopes : List RecipientKeyEnvelope) (secretKeyHex readerPubkey : String) :
    Call String := do
  let envelope ← okOr .decryptionFailed
    (lastWhere (fun e => ctHexEq e.pubkey readerPubkey) readerEnvelopes)
  let keyEnvelope : KeyEnvelope :=
    { enc := envelope.enc
      ct := envelope.ct }
  let messageKey ← hpkeUnwrapKey hpke keyEnvelope secretKeyHex labelMessage
  let data ← mapErr .hexError (hexDecode encryptedContent)
  let plaintext ← aes256gcmDecrypt aead messageKey data (asBytes labelMessage)
  fromUtf8 plaintext

/-! ## Purpose -/

/-- A ciphertext is its message and a tag of 16 bytes. -/
def AppendsTag (aead : Aes256Gcm) : Prop :=
  ∀ key nonce msg aad ciphertext, aead.encrypt key nonce msg aad = .ok ciphertext →
    ciphertext.length = msg.length + 16

/-- A secret key, as a text, and the public key that belongs to it. -/
def SecretOf (hpke : Hpke) (secretKeyHex pubkey : String) : Prop :=
  ∃ sk, hpke.privateKey secretKeyHex = .ok sk ∧ hpke.publicKey pubkey = .ok (hpke.publicOf sk)

/-- A message that exactly its readers can open: the envelopes are those of the readers, in their
order; a reader opens the message through any envelopes of it with one of its own among them; a
public key that no envelope bears is an error; and so is, whatever public key comes with it, a
secret key that belongs to none of the readers. -/
structure OnlyForReaders (hpke : Hpke) (aead : Aes256Gcm) (plaintext : String)
    (readerPubkeys : List String) (message : EncryptedMessage) : Prop where
  envelopes : message.readerEnvelopes.map RecipientKeyEnvelope.pubkey = readerPubkeys
  opens : ∀ envelopes ⊆ message.readerEnvelopes, ∀ secretKeyHex readerPubkey,
    SecretOf hpke secretKeyHex readerPubkey →
    (∃ e ∈ envelopes, ctHexEq e.pubkey readerPubkey = true) →
    decryptMessage hpke aead message.encryptedContent envelopes secretKeyHex readerPubkey =
      .ok plaintext
  unlisted : ∀ envelopes ⊆ message.readerEnvelopes, ∀ secretKeyHex readerPubkey,
    (∀ e ∈ envelopes, ctHexEq e.pubkey readerPubkey = false) →
    decryptMessage hpke aead message.encryptedContent envelopes secretKeyHex readerPubkey =
      .err .decryptionFailed
  refuses : ∀ envelopes ⊆ message.readerEnvelopes, ∀ secretKeyHex readerPubkey,
    (∀ pk ∈ readerPubkeys, ¬ SecretOf hpke secretKeyHex pk) →
    ∃ e, decryptMessage hpke aead message.encryptedContent envelopes secretKeyHex readerPubkey =
      .err e

/-- A primitive refused to encrypt: AES-GCM the message, or HPKE the key for one of the readers. -/
def PrimitiveRefused (hpke : Hpke) (aead : Aes256Gcm) (draws : MessageDraws) (plaintext : String)
    (readerPubkeys : List String) : Prop :=
  (∃ why, aead.encrypt draws.messageKey draws.nonce (asBytes plaintext) (asBytes labelMessage) =
    .error why) ∨
  ∃ reader ∈ readerPubkeys, ∃ pk i why, hpke.publicKey reader = .ok pk ∧
    hpke.singleShotSeal pk (asBytes labelMessage) draws.messageKey.bytes (keyWrapAad labelMessage)
      (draws.ephemerals i) = .error why

/-- Encryption returns a message that exactly the readers can open, unless a primitive refuses. -/
def EncryptsForReaders (hpke : Hpke) (aead : Aes256Gcm) (draws : MessageDraws) (plaintext : String)
    (readerPubkeys : List String) : Prop :=
  match encryptMessage hpke aead draws plaintext readerPubkeys with
  | .ok message => OnlyForReaders hpke aead plaintext readerPubkeys message
  | .err _ => PrimitiveRefused hpke aead draws plaintext readerPubkeys
  | .panic _ => False

/-! ## Wrapped keys -/

section Wrap

variable {hpke : Hpke} {ephemeral key : U8Array 32} {pubkeyHex label : String} {id : UInt8}
  {pk : hpke.PublicKey}

theorem labelToId_message : labelToId labelMessage = some 5 := by decide +kernel

/-- What wrapping a key under a known label makes. -/
theorem hpkeWrapKey_eq (hid : labelToId label = some id) (hpk : hpke.publicKey pubkeyHex = .ok pk) :
    hpkeWrapKey hpke ephemeral key pubkeyHex label =
      match hpke.singleShotSeal pk (asBytes label) key.bytes (keyWrapAad label) ephemeral with
      | .ok (enc, ciphertext) => .ok
        { enc := hexEncode enc.bytes
          ct := hexEncode ciphertext }
      | .error e => .err (.encryptionFailed s!"HPKE seal failed: {e}") := by
  unfold hpkeWrapKey
  rw [hpkeSealKey_eq hid hpk]
  cases hpke.singleShotSeal pk (asBytes label) key.bytes (keyWrapAad label) ephemeral with
  | ok sealed => simp only [ok_bind, Base64.decode_encode, mapErr_ok, pure_eq]
  | error e => rfl

/-- **Unwrapping is the HPKE call with the secret key.** -/
theorem hpkeUnwrapKey_wrapped (hid : labelToId label = some id) (secretKeyHex : String)
    (enc : U8Array 32) (ciphertext : Bytes) :
    hpkeUnwrapKey hpke
        { enc := hexEncode enc.bytes
          ct := hexEncode ciphertext } secretKeyHex label =
      (do
        let sk ← hpke.privateKey secretKeyHex
        let plaintext ← okOr .decryptionFailed
          (hpke.singleShotOpen sk enc (asBytes label) ciphertext (keyWrapAad label))
        tryInto 32 plaintext
          (.invalidFormat s!"expected 32-byte key, got {plaintext.length} bytes")) := by
  unfold hpkeUnwrapKey
  simp only [hexDecode_hexEncode, mapErr_ok, ok_bind, hid, okOr_some]
  exact hpkeOpenKey_eq hid secretKeyHex enc ciphertext

end Wrap

/-- Reading a secret key returns it or fails. -/
theorem privateKey_cases (hpke : Hpke) (secretHex : String) :
    (∃ sk, hpke.privateKey secretHex = .ok sk) ∨ ∃ e, hpke.privateKey secretHex = .err e := by
  unfold Hpke.privateKey
  cases hexDecode secretHex with
  | error e => exact .inr ⟨_, rfl⟩
  | ok bytes =>
    by_cases hlen : bytes.length = 32
    · cases hsk : hpke.privateFromBytes ⟨bytes, hlen⟩ with
      | none => exact .inr ⟨.decryptionFailed, by simp [tryInto, hlen, hsk]⟩
      | some sk => exact .inl ⟨sk, by simp [tryInto, hlen, hsk]⟩
    · exact .inr ⟨.decryptionFailed, by simp [tryInto, hlen]⟩

/-- The envelope holds the key, sealed to the public key that its text denotes. -/
def Wraps (hpke : Hpke) (draws : MessageDraws) (e : RecipientKeyEnvelope) : Prop :=
  ∃ pk enc ciphertext ephemeral, hpke.publicKey e.pubkey = .ok pk ∧
    hpke.singleShotSeal pk (asBytes labelMessage) draws.messageKey.bytes (keyWrapAad labelMessage)
      ephemeral = .ok (enc, ciphertext) ∧
    e.enc = hexEncode enc.bytes ∧ e.ct = hexEncode ciphertext

/-- A wrapped key, unwrapped with the secret key that belongs to the envelope. -/
theorem Wraps.unwrap {hpke : Hpke} (hround : hpke.RoundTrips) {draws : MessageDraws}
    {e : RecipientKeyEnvelope} (he : Wraps hpke draws e) {secretKeyHex : String}
    (hsecret : SecretOf hpke secretKeyHex e.pubkey) :
    hpkeUnwrapKey hpke
      { enc := e.enc
        ct := e.ct } secretKeyHex labelMessage = .ok draws.messageKey := by
  obtain ⟨pk, enc, ciphertext, ephemeral, hpk, hseal, henc, hct⟩ := he
  obtain ⟨sk, hsk, hpublic⟩ := hsecret
  obtain rfl : pk = hpke.publicOf sk := Outcome.ok.inj (hpk.symm.trans hpublic)
  rw [henc, hct, hpkeUnwrapKey_wrapped labelToId_message, hsk, ok_bind,
    hround _ _ _ _ _ _ _ hseal, okOr_some, ok_bind, tryInto_bytes]

/-- Any other secret key is refused. -/
theorem Wraps.refuse {hpke : Hpke} (hother : hpke.RejectsOtherKeys) {draws : MessageDraws}
    {e : RecipientKeyEnvelope} (he : Wraps hpke draws e) {secretKeyHex : String}
    (hsecret : ¬ SecretOf hpke secretKeyHex e.pubkey) :
    ∃ error, hpkeUnwrapKey hpke
      { enc := e.enc
        ct := e.ct } secretKeyHex labelMessage = .err error := by
  obtain ⟨pk, enc, ciphertext, ephemeral, hpk, hseal, henc, hct⟩ := he
  rw [henc, hct, hpkeUnwrapKey_wrapped labelToId_message]
  rcases privateKey_cases hpke secretKeyHex with ⟨sk, hsk⟩ | ⟨error, hsk⟩
  · have hne : hpke.publicOf sk ≠ pk := by
      rintro rfl
      exact hsecret ⟨sk, hsk, hpk⟩
    refine ⟨.decryptionFailed, ?_⟩
    rw [hsk, ok_bind, hother _ _ _ _ _ _ _ sk hseal hne]
    rfl
  · exact ⟨error, by rw [hsk]; rfl⟩

/-- Which envelopes one reader of the loop gets. -/
theorem readerEnvelope_cases {hpke : Hpke} {draws : MessageDraws} {reader : String × Nat}
    {pk : hpke.PublicKey} (hpk : hpke.publicKey reader.1 = .ok pk) :
    (∃ e, readerEnvelope hpke draws reader = .ok e ∧ e.pubkey = reader.1 ∧ Wraps hpke draws e) ∨
      ∃ error why, readerEnvelope hpke draws reader = .err error ∧
        hpke.singleShotSeal pk (asBytes labelMessage) draws.messageKey.bytes
          (keyWrapAad labelMessage) (draws.ephemerals reader.2) = .error why := by
  unfold readerEnvelope
  simp only [hpkeWrapKey_eq labelToId_message hpk]
  cases hseal : hpke.singleShotSeal pk (asBytes labelMessage) draws.messageKey.bytes
      (keyWrapAad labelMessage) (draws.ephemerals reader.2) with
  | error why => exact .inr ⟨_, why, rfl, rfl⟩
  | ok sealed => exact .inl ⟨_, rfl, rfl, pk, sealed.1, sealed.2, _, hpk, hseal, rfl, rfl⟩

/-! ## Messages -/

/-- **A packet opens under its key and associated data.** -/
theorem aes256gcmDecrypt_encrypt {aead : Aes256Gcm} (hround : aead.RoundTrips)
    (htag : AppendsTag aead) {nonce : U8Array 12} {key : U8Array 32} {plaintext aad packed : Bytes}
    (h : aes256gcmEncrypt aead nonce key plaintext aad = .ok packed) :
    aes256gcmDecrypt aead key packed aad = .ok plaintext := by
  unfold aes256gcmEncrypt at h
  rw [aes256GcmNew_ok key.length_eq, mapErr_ok, ok_bind] at h
  obtain ⟨ciphertext, hencrypt, hpacked⟩ := bind_eq_ok.mp h
  rw [mapErr_eq_ok] at hencrypt
  obtain rfl := Outcome.ok.inj hpacked
  have hnonce := nonce.length_eq
  have hlen : 28 ≤ (nonce.bytes ++ ciphertext).length := by
    rw [List.length_append, htag _ _ _ _ _ hencrypt]
    omega
  have htake : (nonce.bytes ++ ciphertext).take 12 = nonce.bytes := by
    rw [List.take_append_of_le_length hnonce.ge, List.take_of_length_le hnonce.le]
  have hdrop : (nonce.bytes ++ ciphertext).drop 12 = ciphertext := by
    rw [List.drop_append_of_le_length hnonce.ge, List.drop_of_length_le hnonce.le,
      List.nil_append]
  unfold aes256gcmDecrypt
  rw [if_neg (by omega), slice_ok (by omega) (by omega), ok_bind, aes256GcmNew_ok key.length_eq,
    slice_ok (by omega) (by omega)]
  simp only [List.drop_zero, htake, U8Array.fromSlice_ok hnonce, ok_bind, mapErr_ok]
  rw [List.take_of_length_le (by simp), hdrop, hround _ _ _ _ _ hencrypt]
  rfl

/-- Texts of the same bytes denote one public key. -/
theorem publicKey_congr {hpke : Hpke} {a b : String} (h : ctHexEq a b = true) :
    hpke.publicKey a = hpke.publicKey b := by
  have hdecode : hexDecode a = hexDecode b := by
    unfold ctHexEq at h
    split at h
    · rename_i ha hb
      rw [ha, hb, of_decide_eq_true h]
    · cases h
  rw [Hpke.publicKey, Hpke.publicKey, hdecode]

theorem envelopes_of_forall₂ {P : RecipientKeyEnvelope → Prop} {readers : List (String × Nat)}
    {envelopes : List RecipientKeyEnvelope}
    (h : List.Forall₂ (fun reader e => e.pubkey = reader.1 ∧ P e) readers envelopes) :
    envelopes.map RecipientKeyEnvelope.pubkey = readers.map Prod.fst ∧ ∀ e ∈ envelopes, P e := by
  induction h with
  | nil => exact ⟨rfl, by simp⟩
  | cons hhead _ ih =>
    rw [List.map_cons, List.map_cons, hhead.1, ih.1]
    exact ⟨rfl, List.forall_mem_cons.mpr ⟨hhead.2, ih.2⟩⟩

/-- **What an encrypted message is made of**, unless a primitive refused. -/
theorem encryptMessage_spec {hpke : Hpke} (aead : Aes256Gcm) (draws : MessageDraws)
    (plaintext : String) {readerPubkeys : List String}
    (hreaders : ∀ pubkey ∈ readerPubkeys, ∃ pk, hpke.publicKey pubkey = .ok pk) :
    (∃ packed envelopes, encryptMessage hpke aead draws plaintext readerPubkeys = .ok
        { encryptedContent := hexEncode packed
          readerEnvelopes := envelopes } ∧
      aes256gcmEncrypt aead draws.nonce draws.messageKey (asBytes plaintext)
        (asBytes labelMessage) = .ok packed ∧
      envelopes.map RecipientKeyEnvelope.pubkey = readerPubkeys ∧
      ∀ e ∈ envelopes, Wraps hpke draws e) ∨
    ∃ error, encryptMessage hpke aead draws plaintext readerPubkeys = .err error ∧
      PrimitiveRefused hpke aead draws plaintext readerPubkeys := by
  have hloop := mapM_spec (g := readerEnvelope hpke draws) (l := readerPubkeys.zipIdx)
    (P := fun reader e => e.pubkey = reader.1 ∧ Wraps hpke draws e)
    (Q := fun _ _ => PrimitiveRefused hpke aead draws plaintext readerPubkeys) (by
      intro reader hin
      have hmem : reader.1 ∈ readerPubkeys :=
        List.mem_of_getElem? (List.mem_zipIdx_iff_getElem?.mp hin)
      obtain ⟨pk, hpk⟩ := hreaders reader.1 hmem
      rcases readerEnvelope_cases hpk with he | ⟨error, why, herr, hseal⟩
      · exact .inl he
      · exact .inr ⟨error, herr, .inr ⟨reader.1, hmem, pk, reader.2, why, hpk, hseal⟩⟩)
  unfold encryptMessage aes256gcmEncrypt
  rw [aes256GcmNew_ok draws.messageKey.length_eq, mapErr_ok, ok_bind]
  cases hencrypt : aead.encrypt draws.messageKey draws.nonce (asBytes plaintext)
      (asBytes labelMessage) with
  | error why => exact .inr ⟨.encryptionFailed why, rfl, .inl ⟨why, hencrypt⟩⟩
  | ok ciphertext =>
    rcases hloop with ⟨envelopes, hloop, hall⟩ | ⟨_, _, error, hloop, hrefused⟩
    · obtain ⟨hpubkeys, hwraps⟩ := envelopes_of_forall₂ hall
      refine .inl ⟨_, envelopes, by rw [hloop]; rfl, rfl, ?_, hwraps⟩
      rw [hpubkeys, List.zipIdx_map_fst]
    · exact .inr ⟨error, by rw [hloop]; rfl, hrefused⟩

section Decrypt

variable {hpke : Hpke} {aead : Aes256Gcm} {draws : MessageDraws} {plaintext : String}
  {packed : Bytes} {envelopes : List RecipientKeyEnvelope} {secretKeyHex readerPubkey : String}

/-- **A reader opens a message** through any envelopes of it with its own among them. -/
theorem decryptMessage_opens (hhpke : hpke.RoundTrips) (haead : aead.RoundTrips)
    (htag : AppendsTag aead)
    (hpacked : aes256gcmEncrypt aead draws.nonce draws.messageKey (asBytes plaintext)
      (asBytes labelMessage) = .ok packed)
    (hwraps : ∀ e ∈ envelopes, Wraps hpke draws e)
    (hsecret : SecretOf hpke secretKeyHex readerPubkey)
    (hown : ∃ e ∈ envelopes, ctHexEq e.pubkey readerPubkey = true) :
    decryptMessage hpke aead (hexEncode packed) envelopes secretKeyHex readerPubkey =
      .ok plaintext := by
  obtain ⟨e, he, heq⟩ := hown
  obtain ⟨envelope, hlast⟩ := lastWhere_isSome
    (p := fun e : RecipientKeyEnvelope => ctHexEq e.pubkey readerPubkey) he heq
  obtain ⟨hmem, hsame⟩ := lastWhere_eq_some hlast
  have hsecret' : SecretOf hpke secretKeyHex envelope.pubkey := by
    rw [SecretOf, publicKey_congr hsame]
    exact hsecret
  unfold decryptMessage
  rw [hlast, okOr_some, ok_bind]
  dsimp only
  rw [(hwraps envelope hmem).unwrap hhpke hsecret', ok_bind, hexDecode_hexEncode, mapErr_ok, ok_bind,
    aes256gcmDecrypt_encrypt haead htag hpacked, ok_bind, fromUtf8_asBytes]

theorem decryptMessage_unlisted (h : ∀ e ∈ envelopes, ctHexEq e.pubkey readerPubkey = false)
    (content : String) :
    decryptMessage hpke aead content envelopes secretKeyHex readerPubkey =
      .err .decryptionFailed := by
  unfold decryptMessage
  cases hlast : lastWhere (fun e => ctHexEq e.pubkey readerPubkey) envelopes with
  | none => rfl
  | some envelope =>
    obtain ⟨hmem, hsame⟩ := lastWhere_eq_some hlast
    rw [h envelope hmem] at hsame
    cases hsame

/-- **A secret key that belongs to no envelope is an error**, whichever public key comes with it. -/
theorem decryptMessage_refuses (hhpke : hpke.RejectsOtherKeys)
    (hwraps : ∀ e ∈ envelopes, Wraps hpke draws e)
    (hsecret : ∀ e ∈ envelopes, ¬ SecretOf hpke secretKeyHex e.pubkey) (content : String) :
    ∃ e, decryptMessage hpke aead content envelopes secretKeyHex readerPubkey = .err e := by
  unfold decryptMessage
  cases hlast : lastWhere (fun e => ctHexEq e.pubkey readerPubkey) envelopes with
  | none => exact ⟨.decryptionFailed, rfl⟩
  | some envelope =>
    have hmem := (lastWhere_eq_some hlast).1
    obtain ⟨error, herr⟩ := (hwraps envelope hmem).refuse hhpke (hsecret envelope hmem)
    refine ⟨error, ?_⟩
    rw [okOr_some, ok_bind]
    dsimp only
    rw [herr, err_bind]

end Decrypt

/-- **Exactly the readers open a message.** Whatever the text and the readers, repeated or not,
encryption returns a message that each reader's secret key opens through its own envelope and no
other secret key opens, unless a primitive refuses to encrypt. -/
theorem encryptMessage_onlyForReaders {hpke : Hpke} {aead : Aes256Gcm} (hhpke : hpke.RoundTrips)
    (hother : hpke.RejectsOtherKeys) (haead : aead.RoundTrips) (htag : AppendsTag aead)
    (draws : MessageDraws) (plaintext : String) {readerPubkeys : List String}
    (hreaders : ∀ pubkey ∈ readerPubkeys, ∃ pk, hpke.publicKey pubkey = .ok pk) :
    EncryptsForReaders hpke aead draws plaintext readerPubkeys := by
  unfold EncryptsForReaders
  rcases encryptMessage_spec aead draws plaintext hreaders with
    ⟨packed, envelopes, hmessage, hpacked, hpubkeys, hwraps⟩ | ⟨error, herr, hrefused⟩
  · rw [hmessage]
    refine ⟨hpubkeys, ?_, ?_, ?_⟩
    · intro es hes secretKeyHex readerPubkey hsecret hown
      exact decryptMessage_opens hhpke haead htag hpacked (fun e he => hwraps e (hes he)) hsecret
        hown
    · intro es _ secretKeyHex readerPubkey hunlisted
      exact decryptMessage_unlisted hunlisted _
    · intro es hes secretKeyHex readerPubkey hsecret
      refine decryptMessage_refuses hother (fun e he => hwraps e (hes he)) (fun e he => ?_) _
      refine hsecret e.pubkey ?_
      rw [← hpubkeys]
      exact List.mem_map_of_mem (hes he)
  · rw [herr]
    exact hrefused

/-! ## A message to a reader that is listed twice -/

def samplePublic : U8Array 32 :=
  U8Array.ofHex 32 "07a37cbc142093c8b755dc1b10e86cb426374ad16aa853ed0bdfc0b2b86d1c7c"

def sampleOtherPublic : U8Array 32 :=
  U8Array.ofHex 32 "5869aff450549732cbaaed5e5df9b30a6da31cb0e5742bad5ad4a1a768f1a67b"

def sampleDraws : MessageDraws where
  messageKey := U8Array.ofHex 32 (String.ofList (List.replicate 64 '1'))
  nonce := U8Array.ofHex 12 (String.ofList (List.replicate 24 '2'))
  ephemerals _ := U8Array.ofHex 32 (String.ofList (List.replicate 64 '3'))

def sampleEnc : U8Array 32 :=
  U8Array.ofHex 32 "a04588b74683334f6e7670db45cca1288fc2c1499d78715d9456f5d99261a823"

/-- The sample's key, wrapped. -/
def sampleWrapped : Bytes :=
  (U8Array.ofHex 48 ("bdf8744aaedb2bc5488d86b823e3d0642656c49757ed521ed12bb8e1f8058144" ++
    "53ecb40a7d607cbab1cb813a273208d8")).bytes

/-- HPKE as far as two secret keys, the bytes 1 to 32 and 33 to 64, and one sealing go; elsewhere
it refuses. -/
def sampleHpke : Hpke where
  PublicKey := U8Array 32
  PrivateKey := Bool
  publicFromBytes := some
  privateFromBytes bytes :=
    if bytes.bytes = (List.range 32).map (fun i => UInt8.ofNat (i + 1)) then some true
    else if bytes.bytes = (List.range 32).map (fun i => UInt8.ofNat (i + 33)) then some false
    else none
  publicOf sk := if sk then samplePublic else sampleOtherPublic
  singleShotSeal pk info plaintext aad ephemeral :=
    if (pk, info, plaintext, aad, ephemeral) = (samplePublic, asBytes labelMessage,
      sampleDraws.messageKey.bytes, keyWrapAad labelMessage, sampleDraws.ephemerals 0)
    then .ok (sampleEnc, sampleWrapped)
    else .error "SealError"
  singleShotOpen sk enc info ciphertext aad :=
    if (sk, enc, info, ciphertext, aad) = (true, sampleEnc, asBytes labelMessage, sampleWrapped,
      keyWrapAad labelMessage)
    then some sampleDraws.messageKey.bytes
    else none

theorem sampleHpke_seal {pk info plaintext aad ephemeral enc ciphertext}
    (h : sampleHpke.singleShotSeal pk info plaintext aad ephemeral = .ok (enc, ciphertext)) :
    pk = samplePublic ∧ info = asBytes labelMessage ∧ plaintext = sampleDraws.messageKey.bytes ∧
      aad = keyWrapAad labelMessage ∧ enc = sampleEnc ∧ ciphertext = sampleWrapped := by
  simp only [sampleHpke] at h
  split_ifs at h with hin
  obtain ⟨hpk, hin⟩ := Prod.mk.inj hin
  obtain ⟨hinfo, hin⟩ := Prod.mk.inj hin
  obtain ⟨hplaintext, hin⟩ := Prod.mk.inj hin
  obtain ⟨haad, -⟩ := Prod.mk.inj hin
  obtain ⟨henc, hciphertext⟩ := Prod.mk.inj (Except.ok.inj h)
  exact ⟨hpk, hinfo, hplaintext, haad, henc.symm, hciphertext.symm⟩

theorem samplePublic_ne : sampleOtherPublic ≠ samplePublic := by decide +kernel

theorem sampleHpke_publicOf {sk : Bool} (h : sampleHpke.publicOf sk = samplePublic) :
    sk = true := by
  cases sk with
  | true => rfl
  | false => exact absurd h samplePublic_ne

theorem sampleHpke_roundTrips : sampleHpke.RoundTrips := by
  intro sk info plaintext aad ephemeral enc ciphertext h
  obtain ⟨hpk, rfl, rfl, rfl, rfl, rfl⟩ := sampleHpke_seal h
  obtain rfl := sampleHpke_publicOf hpk
  simp only [sampleHpke, if_true]

theorem sampleHpke_rejectsOtherKeys : sampleHpke.RejectsOtherKeys := by
  intro pk info plaintext aad ephemeral enc ciphertext sk h hne
  obtain ⟨rfl, -⟩ := sampleHpke_seal h
  refine if_neg fun hin => hne ?_
  rw [(Prod.mk.inj hin).1]
  rfl

/-- AES-GCM as far as the sample goes. -/
def sampleAead : Aes256Gcm :=
  Aes256Gcm.single sampleDraws.messageKey sampleDraws.nonce (asBytes "hola") (asBytes labelMessage)
    (U8Array.ofHex 20 "7f986b28aadca252bdea357ca354a7dbf97b96a9").bytes

theorem sampleAead_appendsTag : AppendsTag sampleAead := by
  intro key nonce msg aad ciphertext h
  unfold sampleAead Aes256Gcm.single at h
  dsimp only at h
  split_ifs at h with hin
  simp only [Prod.mk.injEq] at hin
  obtain rfl := Except.ok.inj h
  rw [hin.2.2.1, U8Array.length_eq]
  decide +kernel

/-- The sample's readers: one, listed twice. -/
def sampleReaders : List String :=
  [hexEncode samplePublic.bytes, hexEncode samplePublic.bytes]

theorem sampleReaders_public :
    ∀ pubkey ∈ sampleReaders, ∃ pk, sampleHpke.publicKey pubkey = .ok pk := by
  intro pubkey hmem
  have hpubkey : pubkey = hexEncode samplePublic.bytes := by simpa [sampleReaders] using hmem
  refine ⟨samplePublic, ?_⟩
  rw [hpubkey, Hpke.publicKey, hexDecode_hexEncode, mapErr_ok, ok_bind, tryInto_bytes, ok_bind]
  rfl

theorem sampleMessage_onlyForReaders :
    EncryptsForReaders sampleHpke sampleAead sampleDraws "hola" sampleReaders :=
  encryptMessage_onlyForReaders sampleHpke_roundTrips sampleHpke_rejectsOtherKeys
    (Aes256Gcm.single_roundTrips _ _ _ _ _) sampleAead_appendsTag sampleDraws "hola"
    sampleReaders_public

/-- The sample is encrypted, and decrypted again. -/
example : (encryptMessage sampleHpke sampleAead sampleDraws "hola" sampleReaders >>= fun message =>
      decryptMessage sampleHpke sampleAead message.encryptedContent message.readerEnvelopes
        "0102030405060708090a0b0c0d0e0f101112131415161718191a1b1c1d1e1f20"
        "07A37CBC142093C8B755DC1B10E86CB426374AD16AA853ED0BDFC0B2B86D1C7C") = .ok "hola" := by
  decide +kernel

end Llamenos.Crypto.Encryption

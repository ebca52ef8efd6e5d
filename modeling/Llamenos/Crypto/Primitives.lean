import Llamenos.Crypto.Errors
import Llamenos.Lib.BigEndian
import Llamenos.Lib.Text

/-!
# What the crypto core is built on

The standard-library conversions the crate uses, and the primitives of other crates as
parameters, with the part of their documentation that the code relies on as fields: Ed25519
(`ed25519-dalek` 2), HKDF-SHA256 (`hkdf` 0.12) and AES-256-GCM (`aes-gcm` 0.10).

Results:
* `hexDecode_hexEncode`: hexadecimal round-trips.
* `toBeBytes_inj`, `fromBeBytes_replicate_zero_toBe`: the 8-byte form of a `u64` tells counters
  apart, and a shorter form padded with zeros reads back as the same number.
* `expandInto_ok`: an expansion to at most 255 blocks never panics.
-/

namespace Llamenos.Crypto

open Llamenos.Lib Llamenos.Lib.Outcome

/-! ## Byte arrays and texts -/

/-- `[u8; n]`. -/
structure U8Array (n : Nat) where
  bytes : Bytes
  length_eq : bytes.length = n
  deriving DecidableEq

theorem U8Array.ext' {n : Nat} {a b : U8Array n} (h : a.bytes = b.bytes) : a = b := by
  cases a
  cases b
  cases h
  rfl

/-- `slice.try_into().unwrap()`, and `GenericArray::from_slice`: a slice of another length
panics. -/
def U8Array.fromSlice (n : Nat) (bytes : Bytes) : Call (U8Array n) :=
  if h : bytes.length = n then .ok ⟨bytes, h⟩ else .panic .expect

@[simp] theorem U8Array.fromSlice_ok {n : Nat} {bytes : Bytes} (h : bytes.length = n) :
    U8Array.fromSlice n bytes = .ok ⟨bytes, h⟩ := dif_pos h

/-- `bytes.try_into()`, after a check of the length that fails the same way. -/
def tryInto (n : Nat) (bytes : Bytes) (otherwise : CryptoError) : Call (U8Array n) :=
  if h : bytes.length = n then .ok ⟨bytes, h⟩ else .err otherwise

theorem tryInto_eq_ok {n : Nat} {bytes : Bytes} {e : CryptoError} {array : U8Array n}
    (h : tryInto n bytes e = .ok array) : bytes = array.bytes := by
  unfold tryInto at h
  split at h
  · injection h with h
    rw [← h]
  · cases h

/-- The array with these hexadecimal digits, cut or filled with zeros to its length. -/
def U8Array.ofHex (n : Nat) (digits : String) : U8Array n :=
  let bytes := match hexPairs ((asBytes digits).map UInt8.toNat) 0 with
    | .ok bytes => bytes
    | .error _ => []
  ⟨(bytes ++ List.replicate n 0).take n, by simp⟩

/-- `hex::decode`: the bytes of the text are read as Latin-1 characters. -/
def hexDecode (s : String) : Except FromHexError Bytes :=
  if (asBytes s).length % 2 ≠ 0 then .error .oddLength
  else match hexPairs ((asBytes s).map UInt8.toNat) 0 with
    | .ok bytes => .ok bytes
    | .error (c, index) => .error (.invalidHexCharacter (Char.ofNat c) index)

@[simp] theorem hexDecode_hexEncode (bytes : Bytes) : hexDecode (hexEncode bytes) = .ok bytes := by
  have hlen : (asBytes (hexEncode bytes)).length % 2 = 0 := by
    rw [length_asBytes_hexEncode]
    omega
  unfold hexDecode
  rw [if_neg (not_not_intro hlen), hexCodes_asBytes, hexPairs_hexChars]

/-- `u64::to_be_bytes`. -/
def toBeBytes (v : UInt64) : Bytes := toBe 8 v.toNat

/-- `u64::from_be_bytes`, on the eight bytes of its argument. -/
def fromBeBytes (bytes : Bytes) : UInt64 := UInt64.ofNat (ofBe bytes)

@[simp] theorem length_toBeBytes (v : UInt64) : (toBeBytes v).length = 8 := length_toBe 8 v.toNat

theorem toBeBytes_inj {v w : UInt64} : toBeBytes v = toBeBytes w ↔ v = w := by
  rw [toBeBytes, toBeBytes, toBe_inj v.toNat_lt w.toNat_lt, UInt64.toNat_inj]

/-- A short big-endian form, padded with zeros, reads back. -/
theorem fromBeBytes_replicate_zero_toBe {v : UInt64} {len : Nat} (h : v.toNat < 256 ^ len)
    (k : Nat) : fromBeBytes (List.replicate k 0 ++ toBe len v.toNat) = v := by
  rw [fromBeBytes, ofBe_replicate_zero, ofBe_toBe_of_lt h, UInt64.ofNat_toNat]

/-! ## Primitives of other crates -/

/-- Ed25519 verification: the public keys that are points, and for these the signatures of a
message. -/
abbrev Ed25519 := U8Array 32 → Option (Bytes → U8Array 64 → Bool)

/-- The signing half of `DeviceSecrets`. -/
structure DeviceSecrets where
  signingPubkey : U8Array 32
  sign : Bytes → U8Array 64

/-- HKDF-SHA256 without salt. Expansion fails only above 255 blocks of 32 bytes. -/
structure Hkdf where
  expand : (ikm info : Bytes) → (len : Nat) → Option (U8Array len)
  expand_isSome : ∀ ikm info len, len ≤ 255 * 32 → (expand ikm info len).isSome

/-- `hk.expand(info, &mut out).expect(..)` with `out: [u8; len]`. -/
def Hkdf.expandInto (hkdf : Hkdf) (ikm info : Bytes) (len : Nat) : Call (U8Array len) :=
  match hkdf.expand ikm info len with
  | some out => .ok out
  | none => .panic .expect

theorem Hkdf.expandInto_ok (hkdf : Hkdf) (ikm info : Bytes) {len : Nat} (h : len ≤ 255 * 32) :
    ∃ out, hkdf.expandInto ikm info len = .ok out := by
  obtain ⟨out, hout⟩ := Option.isSome_iff_exists.mp (hkdf.expand_isSome ikm info len h)
  exact ⟨out, by rw [Hkdf.expandInto, hout]⟩

/-- AES-256-GCM: encryption fails with a text (a message above the size limit), decryption fails
on authentication. -/
structure Aes256Gcm where
  encrypt : U8Array 32 → U8Array 12 → (msg aad : Bytes) → Except String Bytes
  decrypt : U8Array 32 → U8Array 12 → (msg aad : Bytes) → Option Bytes

/-- What `encrypt` makes of a message, `decrypt` opens again under the same associated data. -/
def Aes256Gcm.RoundTrips (aead : Aes256Gcm) : Prop :=
  ∀ key nonce msg aad ciphertext, aead.encrypt key nonce msg aad = .ok ciphertext →
    aead.decrypt key nonce ciphertext aad = some msg

/-- A ciphertext does not open under other associated data. -/
def Aes256Gcm.RejectsOtherAad (aead : Aes256Gcm) : Prop :=
  ∀ key nonce msg aad ciphertext aad', aead.encrypt key nonce msg aad = .ok ciphertext →
    aad' ≠ aad → aead.decrypt key nonce ciphertext aad' = none

/-- An AEAD that is only known on one input; elsewhere it refuses. -/
def Aes256Gcm.single (key : U8Array 32) (nonce : U8Array 12) (msg aad ciphertext : Bytes) :
    Aes256Gcm where
  encrypt key' nonce' msg' aad' :=
    if (key', nonce', msg', aad') = (key, nonce, msg, aad) then .ok ciphertext
    else .error "aead::Error"
  decrypt key' nonce' ciphertext' aad' :=
    if (key', nonce', ciphertext', aad') = (key, nonce, ciphertext, aad) then some msg else none

theorem Aes256Gcm.single_roundTrips (key : U8Array 32) (nonce : U8Array 12)
    (msg aad ciphertext : Bytes) : (Aes256Gcm.single key nonce msg aad ciphertext).RoundTrips := by
  intro key' nonce' msg' aad' ciphertext' h
  unfold Aes256Gcm.single at h ⊢
  by_cases hin : (key', nonce', msg', aad') = (key, nonce, msg, aad)
  · simp only [if_pos hin, Except.ok.injEq] at h
    simp only [Prod.mk.injEq] at hin
    obtain ⟨rfl, rfl, rfl, rfl⟩ := hin
    simp [h]
  · simp only [if_neg hin] at h
    cases h

/-- `Aes256Gcm::new_from_slice`. -/
def aes256GcmNew (key : Bytes) : Except String (U8Array 32) :=
  if h : key.length = 32 then .ok ⟨key, h⟩ else .error "Invalid Length"

@[simp] theorem aes256GcmNew_ok {key : Bytes} (h : key.length = 32) :
    aes256GcmNew key = .ok ⟨key, h⟩ := dif_pos h

end Llamenos.Crypto

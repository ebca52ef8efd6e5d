import Llamenos.Lib.Outcome

/-!
# Errors of the crypto core

`CryptoError` (`packages/crypto/src/errors.rs`). A call of the crate is an `Outcome CryptoError`:
`Ok`, `Err`, or a panic. The wrapped errors of `serde_json` are kept as texts.
-/

namespace Llamenos.Crypto

open Llamenos.Lib

/-- `hex::FromHexError`. -/
inductive FromHexError where
  | invalidHexCharacter (c : Char) (index : Nat)
  | oddLength
  deriving DecidableEq

/-- `CryptoError`. -/
inductive CryptoError where
  | invalidSecretKey
  | invalidPublicKey
  | invalidEphemeralKey
  | ecdhFailed
  | encryptionFailed (why : String)
  | decryptionFailed
  | hexError (why : FromHexError)
  | invalidNonce
  | invalidCiphertext
  | keyDerivationFailed (why : String)
  | signatureVerificationFailed
  | jsonError (why : String)
  | wrongPin
  | invalidPin
  | invalidInput (why : String)
  | invalidFormat (why : String)
  | hkdfExpandError
  | invalidSignature
  | staleTimestamp
  | futureTimestamp
  deriving DecidableEq

/-- A call of the crate. -/
abbrev Call (α : Type) := Outcome CryptoError α

/-- Bytes, as slices and vectors of `u8`. -/
abbrev Bytes := List UInt8

/-- `result.map_err(f)?` on a library call that cannot panic. -/
def mapErr {ε α : Type} (f : ε → CryptoError) : Except ε α → Call α
  | .ok a => .ok a
  | .error e => .err (f e)

@[simp] theorem mapErr_ok {ε α : Type} (f : ε → CryptoError) (a : α) :
    mapErr f (.ok a) = .ok a := rfl

@[simp] theorem mapErr_error {ε α : Type} (f : ε → CryptoError) (e : ε) :
    mapErr f (.error e : Except ε α) = .err (f e) := rfl

theorem mapErr_eq_ok {ε α : Type} {f : ε → CryptoError} {r : Except ε α} {a : α} :
    mapErr f r = .ok a ↔ r = .ok a := by
  cases r <;> simp

end Llamenos.Crypto

import Llamenos.Crypto.Auth
import Llamenos.Lib.Json
import Mathlib.Data.Rat.Floor

/-!
# What the worker's TypeScript is built on

The language as far as the worker's services use it, `packages/shared/encoding.ts`, and
`ed25519Verify` of `packages/crypto/ffi.ts`. A function that throws returns `none`.

`JSON.parse` and the coercions of values that are neither texts nor numbers are parameters
(`Js`). Numbers are exact: at the size of a clock reading, sums and differences of doubles within
minutes of it are.

Results:
* `hexToBytes_eq_some`: `hexToBytes` accepts the same texts as `hex::decode`, with the same bytes.
* `ed25519Verify_true`: what a verified signature was.
* `floor_le_timeClip`: a date is not before the whole milliseconds it was made of.
-/

namespace Llamenos.Worker

open Llamenos.Lib Llamenos.Crypto

/-! ## Values -/

/-- A number. -/
inductive JsNumber where
  | finite (q : ℚ)
  | infinite
  | nan
  deriving DecidableEq

/-- `JSON.parse`, the numbers it gives, and the coercions of values: `ToNumber`, `ToString`, and
the time of `new Date(value + ms)`, `none` for an invalid date. -/
structure Js (N : Type) where
  parse : String → Option (Json N)
  value : N → JsNumber
  numberText : N → String
  toNumber : Json N → Option JsNumber
  toText : Json N → Option String
  dateAfter : Json N → ℚ → Option Int

variable {N : Type}

/-- The runtime where numbers are integers, and other values are not coerced. -/
def integerJs (parse : String → Option (Json Int)) : Js Int where
  parse := parse
  value n := .finite n
  numberText n := String.ofList (intChars n)
  toNumber _ := none
  toText _ := none
  dateAfter _ _ := none

/-- Whether a property is there and not falsy. -/
def truthy (js : Js N) : Option (Json N) → Bool
  | none | some .null => false
  | some (.bool b) => b
  | some (.num n) => js.value n != .finite 0 && js.value n != .nan
  | some (.str s) => s != ""
  | some (.arr _) | some (.obj _) => true

/-- A value as the operand of an arithmetic operator. -/
def numeric (js : Js N) : Json N → Option JsNumber
  | .num n => some (js.value n)
  | v => js.toNumber v

/-- A value inside a template literal. -/
def interpolate (js : Js N) : Json N → Option String
  | .str s => some s
  | .num n => some (js.numberText n)
  | v => js.toText v

/-- The time of `new Date(t)`: truncated to whole milliseconds, within 10⁸ days of the epoch. -/
def timeClip (t : ℚ) : Option Int :=
  if |t| ≤ 8640000000000000 then some (if 0 ≤ t then ⌊t⌋ else ⌈t⌉) else none

/-- The time of `new Date(value + ms)`. -/
def dateAfter (js : Js N) (value : Json N) (ms : ℚ) : Option Int :=
  match value with
  | .num n =>
    match js.value n with
    | .finite q => timeClip (q + ms)
    | .infinite | .nan => none
  | v => js.dateAfter v ms

theorem floor_le_timeClip {t : ℚ} {ms : Int} (h : timeClip t = some ms) : ⌊t⌋ ≤ ms := by
  unfold timeClip at h
  split at h
  · injection h with h
    rw [← h]
    by_cases hpos : 0 ≤ t
    · rw [if_pos hpos]
    · rw [if_neg hpos]
      exact Int.floor_le_ceil t
  · cases h

/-! ## Texts -/

/-- White space and line terminators. -/
def isSpace (c : Char) : Bool :=
  [0x9, 0xA, 0xB, 0xC, 0xD, 0x20, 0xA0, 0x1680, 0x2028, 0x2029, 0x202F, 0x205F, 0x3000,
    0xFEFF].contains c.toNat || (0x2000 ≤ c.toNat && c.toNat ≤ 0x200A)

/-- `text.trim()`. -/
def trim (s : String) : String :=
  String.ofList ((s.toList.dropWhile isSpace).reverse.dropWhile isSpace).reverse

/-- `text.padStart(length, fill)`, for a fill of one character and an ASCII text. -/
def padStart (length : Nat) (fill : Char) (text : List Char) : List Char :=
  List.replicate (length - text.length) fill ++ text

/-- `text.startsWith(start)`, and then `text.slice(start.length)`, for an ASCII `start`. -/
def after (start text : String) : Option String :=
  if start.toList.isPrefixOf text.toList then
    some (String.ofList (text.toList.drop start.toList.length))
  else none

/-- A byte of `text.toLowerCase()`, for a comparison with hexadecimal digits: of these, only the
letters have upper-case forms, and only ASCII ones. -/
def lowerByte (b : UInt8) : UInt8 := if 65 ≤ b ∧ b ≤ 90 then b + 32 else b

def toLowerCase (s : String) : Bytes := (asBytes s).map lowerByte

@[simp] theorem after_append (start rest : String) : after start (start ++ rest) = some rest := by
  unfold after
  rw [if_pos (by simp), String.toList_append, List.drop_left, String.ofList_toList]

/-- A text does not start in two ways that exclude each other. -/
theorem after_eq_none {start start' text rest : String} (h : after start text = some rest)
    (hne : ¬ start.toList <+: start'.toList) (hne' : ¬ start'.toList <+: start.toList) :
    after start' text = none := by
  unfold after at h ⊢
  split at h
  · rename_i hstart
    refine if_neg fun hstart' => ?_
    rcases List.prefix_or_prefix_of_prefix (List.isPrefixOf_iff_prefix.mp hstart)
      (List.isPrefixOf_iff_prefix.mp hstart') with hp | hp
    · exact hne hp
    · exact hne' hp
  · cases h

/-! ## Encodings and signatures -/

/-- `hexToBytes`. -/
def hexToBytes (hex : String) : Option Bytes :=
  if (charCodes hex).length % 2 ≠ 0 then none
  else match hexPairs (charCodes hex) 0 with
    | .ok bytes => some bytes
    | .error _ => none

/-- `ed25519Verify`: it throws where `ffi_ed25519_verify` reports anything but a mismatch. -/
def ed25519Verify (ed25519 : Ed25519) (pubkey message signature : Bytes) : Option Bool :=
  if message.length > 100 * 1024 * 1024 then none
  else if hpk : pubkey.length ≠ 32 then none
  else if hsig : signature.length ≠ 64 then none
  else match ed25519 ⟨pubkey, not_not.mp hpk⟩ with
    | none => none
    | some verify => some (verify message ⟨signature, not_not.mp hsig⟩)

/-- **The server and the crypto core read the same hexadecimal.** -/
theorem hexToBytes_eq_some {s : String} {bytes : Bytes} :
    hexToBytes s = some bytes ↔ hexDecode s = .ok bytes := by
  have hto : hexToBytes s = some bytes ↔
      (charCodes s).length % 2 = 0 ∧ hexPairs (charCodes s) 0 = .ok bytes := by
    unfold hexToBytes
    by_cases heven : (charCodes s).length % 2 = 0
    · rw [if_neg (not_not_intro heven)]
      cases hexPairs (charCodes s) 0 <;> simp [heven]
    · simp [heven]
  have hdecode : hexDecode s = .ok bytes ↔
      (asBytes s).length % 2 = 0 ∧ hexPairs ((asBytes s).map UInt8.toNat) 0 = .ok bytes := by
    unfold hexDecode
    by_cases heven : (asBytes s).length % 2 = 0
    · rw [if_neg (not_not_intro heven)]
      cases hexPairs ((asBytes s).map UInt8.toNat) 0 <;> simp [heven]
    · simp [heven]
  rw [hto, hdecode, hexPairs_charCodes_iff]

theorem ed25519Verify_true {ed25519 : Ed25519} {pubkey message signature : Bytes}
    (h : ed25519Verify ed25519 pubkey message signature = some true) :
    ∃ (key : U8Array 32) (sig : U8Array 64) (verify : Bytes → U8Array 64 → Bool),
      key.bytes = pubkey ∧ sig.bytes = signature ∧ ed25519 key = some verify ∧
        verify message sig = true := by
  unfold ed25519Verify at h
  split_ifs at h with hsize hpk hsig
  split at h
  · cases h
  · rename_i verify hverify
    exact ⟨_, _, verify, rfl, rfl, hverify, Option.some.inj h⟩

end Llamenos.Worker

import Llamenos.Worker.Runtime
import Mathlib.Data.List.Sort

/-!
# The server's canonical JSON

`canonicalizeJson` and `computeEntryHash` of `apps/worker/services/crypto-keys.ts`, with
`JSON.stringify`.

`canonicalizeJson` sorts the keys by code units and then assigns them, in that order, to a new
object. The order of an object's own keys is not that of assignment: array indices come first, by
their number. And an assignment to `__proto__` makes no key.

Results:
* `codesLe_trans`, `codesLe_total`: keys are compared by a linear order.
-/

namespace Llamenos.Worker

open Llamenos.Lib Llamenos.Crypto

variable {N : Type}

/-! ## The code -/

/-- Lexicographic order of code units. -/
def codesLe : List Nat → List Nat → Bool
  | [], _ => true
  | _ :: _, [] => false
  | c :: cs, d :: ds => decide (c < d) || (c == d && codesLe cs ds)

/-- The comparison of `Array.prototype.sort`: by code units. -/
def keyLe (a b : String × Json N) : Prop := codesLe (charCodes a.1) (charCodes b.1) = true

instance (a b : String × Json N) : Decidable (keyLe a b) :=
  inferInstanceAs (Decidable (codesLe (charCodes a.1) (charCodes b.1) = true))

/-- The number of a key that is an array index: decimal, and below 2³² - 1. -/
def arrayIndex? (key : String) : Option Nat :=
  let n := Nat.ofDigitChars 10 key.toList 0
  if key.toList = decimal n ∧ n < 4294967295 then some n else none

/-- The own properties of a new object that these were assigned to, in the order of its keys. -/
def ownFields (fields : List (String × Json N)) : List (String × Json N) :=
  let own := fields.filter fun field => field.1 ≠ "__proto__"
  let indices := own.filter fun field => (arrayIndex? field.1).isSome
  let names := own.filter fun field => (arrayIndex? field.1).isNone
  let index (field : String × Json N) : Nat := (arrayIndex? field.1).getD 0
  indices.insertionSort (fun a b => index a ≤ index b) ++ names

/-- The loop over `Object.keys(value).sort()`. -/
def sortFields (fields : List (String × Json N)) : List (String × Json N) :=
  ownFields (fields.insertionSort keyLe)

mutual

/-- `canonicalizeJson`. -/
def canonicalizeJson : Json N → Json N
  | .arr xs => .arr (canonicalizeElems xs)
  | .obj fields => .obj (sortFields (canonicalizeFields fields))
  | v => v

/-- `value.map(canonicalizeJson)`. -/
def canonicalizeElems : List (Json N) → List (Json N)
  | [] => []
  | x :: xs => canonicalizeJson x :: canonicalizeElems xs

/-- `canonicalizeJson` of every property. -/
def canonicalizeFields : List (String × Json N) → List (String × Json N)
  | [] => []
  | (key, x) :: fields => (key, canonicalizeJson x) :: canonicalizeFields fields

end

/-- `JSON.stringify` of a number. -/
def stringifyNumber (js : Js N) (n : N) : Bytes :=
  match js.value n with
  | .finite _ => asBytes (js.numberText n)
  | .infinite | .nan => asBytes "null"

/-- The UTF-8 bytes of `JSON.stringify`. -/
def stringify (js : Js N) (value : Json N) : Bytes := value.render (stringifyNumber js)

/-- `computeEntryHash`. -/
def computeEntryHash (js : Js N) (sha256 : Bytes → U8Array 32) (seq : N)
    (prevHash : Option String) (timestamp signerDeviceId signerPubkey : String)
    (payload : Json N) : String :=
  let canonical := canonicalizeJson (.obj [("payload", payload),
    ("prevHash", prevHash.elim .null .str), ("seq", .num seq),
    ("signerDeviceId", .str signerDeviceId), ("signerPubkey", .str signerPubkey),
    ("timestamp", .str timestamp)])
  hexEncode (sha256 (stringify js canonical)).bytes

/-- Where numbers are integers, they are told apart by their texts. -/
theorem unambiguous_integerJs (parse : String → Option (Json Int)) :
    Json.Unambiguous (stringifyNumber (integerJs parse)) := by
  have htext : stringifyNumber (integerJs parse) = fun i => (intChars i).map ascii := by
    funext i
    exact asBytes_ofList (toNat_intChars_lt i)
  rw [htext]
  exact Json.unambiguous_intBytes

/-! ## The order of keys -/

theorem codesLe_trans {cs ds es : List Nat} (hcd : codesLe cs ds = true)
    (hde : codesLe ds es = true) : codesLe cs es = true := by
  induction cs generalizing ds es with
  | nil => rfl
  | cons c cs ih =>
    cases ds with
    | nil => cases hcd
    | cons d ds =>
      cases es with
      | nil => cases hde
      | cons e es =>
        simp only [codesLe, Bool.or_eq_true, decide_eq_true_eq, Bool.and_eq_true,
          beq_iff_eq] at hcd hde ⊢
        rcases hcd with hcd | ⟨rfl, hcd⟩
        · rcases hde with hde | ⟨rfl, -⟩
          · exact .inl (hcd.trans hde)
          · exact .inl hcd
        · rcases hde with hde | ⟨rfl, hde⟩
          · exact .inl hde
          · exact .inr ⟨rfl, ih hcd hde⟩

theorem codesLe_total (cs ds : List Nat) : codesLe cs ds = true ∨ codesLe ds cs = true := by
  induction cs generalizing ds with
  | nil => exact .inl rfl
  | cons c cs ih =>
    cases ds with
    | nil => exact .inr rfl
    | cons d ds =>
      simp only [codesLe, Bool.or_eq_true, decide_eq_true_eq, Bool.and_eq_true, beq_iff_eq]
      rcases Nat.lt_trichotomy c d with h | rfl | h
      · exact .inl (.inl h)
      · rcases ih ds with h | h
        · exact .inl (.inr ⟨rfl, h⟩)
        · exact .inr (.inr ⟨rfl, h⟩)
      · exact .inr (.inl h)

instance : IsTrans (String × Json N) keyLe := ⟨fun _ _ _ => codesLe_trans⟩

instance : Std.Total (keyLe (N := N)) := ⟨fun _ _ => codesLe_total _ _⟩

example : (sortFields [("10", .null), ("b", .null), ("9", .null), ("__proto__", .null),
    ("a", .null)] : List (String × Json Nat)).map Prod.fst = ["9", "10", "a", "b"] := by
  decide +kernel

end Llamenos.Worker

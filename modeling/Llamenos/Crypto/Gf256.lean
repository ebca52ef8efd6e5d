import Llamenos.Crypto.Errors
import Mathlib.Algebra.CharP.Defs
import Mathlib.Algebra.Field.Basic
import Mathlib.Data.Fintype.Basic
import Mathlib.Logic.Function.Iterate
import Mathlib.Tactic.Ring

/-!
# GF(2^8) arithmetic of the secret-sharing module is a field

Model of the arithmetic of `packages/crypto/src/shamir.rs` (lines 37-132): `gf256MulCt` is the
eight rounds of the shift-and-xor loop, `gf256Mul` reads the 256 × 256 table built from it,
`gf256Inv` is the square-and-multiply chain for `a^254`, `gf256Div` refuses a zero divisor.

`Gf256` wraps a byte; its field operations are those functions. No 2^24-case check is made:
* the loop is additive in each argument (`mulCt_xor_left`, `mulCt_xor_right`), so commutativity
  and associativity follow from the eight bytes `1 <<< i` (`byte_induction`);
* `a ↦ a^256` is additive too and fixes those eight bytes, hence every byte (`pow_256`);
* the only idempotents are 0 and 1, so `a^255`, an idempotent, is 1 for `a ≠ 0` (`pow_255`), and
  `a^254` is the inverse.

Headline: the instance `Field Gf256`, with `gf256Mul_byte`, `gf256Inv_byte` and `gf256Div_ok`
reading the coded functions as its operations.
-/

namespace Llamenos.Crypto.Shamir

open Llamenos.Lib

/-! ## The arithmetic as coded -/

/-- `GF256_MODULUS`: x^8 + x^4 + x^3 + x + 1. -/
def gf256Modulus : UInt16 := 0x11B

/-- The loop variables of `gf256_mul_ct`. -/
structure MulState where
  aa : UInt8
  bb : UInt8
  result : UInt8

/-- The update of `aa` in one round: shift left, reduce when the top bit was set. -/
def xtime (aa : UInt8) : UInt8 :=
  let carry := aa &&& 0x80
  let aa := aa <<< 1
  if carry ≠ 0 then aa ^^^ gf256Modulus.toUInt8 else aa

/-- One round of `gf256_mul_ct`. -/
def mulRound (s : MulState) : MulState where
  aa := xtime s.aa
  bb := s.bb >>> 1
  result := if s.bb &&& 1 ≠ 0 then s.result ^^^ s.aa else s.result

/-- `gf256_mul_ct`: `while i < 8`. -/
def gf256MulCt (a b : UInt8) : UInt8 := (mulRound^[8] ⟨a, b, 0⟩).result

/-- `GF256_MUL_TABLE`. -/
def gf256MulTable : Vector (Vector UInt8 256) 256 :=
  Vector.ofFn fun a => Vector.ofFn fun b => gf256MulCt (UInt8.ofFin a) (UInt8.ofFin b)

/-- `gf256_mul`: a table lookup. -/
def gf256Mul (a b : UInt8) : UInt8 := (gf256MulTable.get a.toFin).get b.toFin

/-- `gf256_add`. -/
def gf256Add (a b : UInt8) : UInt8 := a ^^^ b

/-- `gf256_inv`: `a^254` by square-and-multiply, and 0 for 0. -/
def gf256Inv (a : UInt8) : UInt8 :=
  if a = 0 then 0
  else
    let result := gf256Mul a a
    let a3 := gf256Mul result a
    let result := gf256Mul a3 a3
    let a7 := gf256Mul result a
    let result := gf256Mul a7 a7
    let a15 := gf256Mul result a
    let result := gf256Mul a15 a15
    let a31 := gf256Mul result a
    let result := gf256Mul a31 a31
    let a63 := gf256Mul result a
    let result := gf256Mul a63 a63
    let a127 := gf256Mul result a
    gf256Mul a127 a127

/-- `gf256_div`. -/
def gf256Div (a b : UInt8) : Call UInt8 :=
  if b = 0 then .err (.invalidInput "division by zero in GF(2^8)")
  else .ok (gf256Mul a (gf256Inv b))

/-- The table holds the loop's results. -/
theorem gf256Mul_eq (a b : UInt8) : gf256Mul a b = gf256MulCt a b := by
  have get_ofFn : ∀ {α : Type} (f : Fin 256 → α) (i : Fin 256), (Vector.ofFn f).get i = f i :=
    fun f i => Vector.getElem_ofFn i.isLt
  unfold gf256Mul gf256MulTable
  rw [get_ofFn, get_ofFn, UInt8.ofFin_toFin, UInt8.ofFin_toFin]

/-! ## The loop is additive in each argument -/

theorem forall_byte {P : UInt8 → Prop} (h : ∀ n : Fin 256, P (UInt8.ofFin n)) (a : UInt8) : P a :=
  h a.toFin

theorem and_top_cases (a : UInt8) : a &&& 0x80 = 0 ∨ a &&& 0x80 = 0x80 :=
  forall_byte (P := fun a => a &&& 0x80 = 0 ∨ a &&& 0x80 = 0x80) (by decide +kernel) a

theorem and_one_cases (a : UInt8) : a &&& 1 = 0 ∨ a &&& 1 = 1 :=
  forall_byte (P := fun a => a &&& 1 = 0 ∨ a &&& 1 = 1) (by decide +kernel) a

theorem xor_and_distrib (a b c : UInt8) : (a ^^^ b) &&& c = (a &&& c) ^^^ (b &&& c) := by
  apply UInt8.toBitVec_inj.mp
  ext i hi
  simp [Bool.and_xor_distrib_right]

theorem xor_xor_xor_comm (a b c d : UInt8) : (a ^^^ b) ^^^ (c ^^^ d) = (a ^^^ c) ^^^ (b ^^^ d) := by
  rw [UInt8.xor_assoc, UInt8.xor_assoc, ← UInt8.xor_assoc b, ← UInt8.xor_assoc c,
    UInt8.xor_comm b c]

theorem xtime_xor (a b : UInt8) : xtime (a ^^^ b) = xtime a ^^^ xtime b := by
  unfold xtime
  simp only [xor_and_distrib, UInt8.shiftLeft_xor]
  rcases and_top_cases a with ha | ha <;> rcases and_top_cases b with hb | hb <;> rw [ha, hb]
  · simp
  · simp [UInt8.xor_assoc]
  · simp
    ac_rfl
  · simp [xor_xor_xor_comm]

theorem mulRound_xor_left (a a' b r r' : UInt8) :
    mulRound ⟨a ^^^ a', b, r ^^^ r'⟩ =
      ⟨(mulRound ⟨a, b, r⟩).aa ^^^ (mulRound ⟨a', b, r'⟩).aa, b >>> 1,
        (mulRound ⟨a, b, r⟩).result ^^^ (mulRound ⟨a', b, r'⟩).result⟩ := by
  unfold mulRound
  simp only [xtime_xor]
  split
  · rw [xor_xor_xor_comm]
  · rfl

theorem mulRound_xor_right (a b b' r r' : UInt8) :
    mulRound ⟨a, b ^^^ b', r ^^^ r'⟩ =
      ⟨xtime a, (b >>> 1) ^^^ (b' >>> 1),
        (mulRound ⟨a, b, r⟩).result ^^^ (mulRound ⟨a, b', r'⟩).result⟩ := by
  unfold mulRound
  simp only [xor_and_distrib, UInt8.shiftRight_xor]
  rcases and_one_cases b with hb | hb <;> rcases and_one_cases b' with hb' | hb' <;> rw [hb, hb']
  · simp
  · simp [UInt8.xor_assoc]
  · simp
    ac_rfl
  · simp [xor_xor_xor_comm r a r' a]

/-- The rounds, from any state, are additive in `aa` and `result` together. -/
theorem mulRounds_xor_left (n : Nat) (a a' b r r' : UInt8) :
    (mulRound^[n] ⟨a ^^^ a', b, r ^^^ r'⟩).result =
      (mulRound^[n] ⟨a, b, r⟩).result ^^^ (mulRound^[n] ⟨a', b, r'⟩).result := by
  induction n generalizing a a' b r r' with
  | zero => rfl
  | succ n ih =>
    simp only [Function.iterate_succ_apply, mulRound_xor_left]
    rw [ih]
    rfl

/-- The rounds, from any state, are additive in `bb` and `result` together. -/
theorem mulRounds_xor_right (n : Nat) (a b b' r r' : UInt8) :
    (mulRound^[n] ⟨a, b ^^^ b', r ^^^ r'⟩).result =
      (mulRound^[n] ⟨a, b, r⟩).result ^^^ (mulRound^[n] ⟨a, b', r'⟩).result := by
  induction n generalizing a b b' r r' with
  | zero => rfl
  | succ n ih =>
    simp only [Function.iterate_succ_apply, mulRound_xor_right]
    rw [ih]
    rfl

theorem mulCt_xor_left (a a' b : UInt8) :
    gf256MulCt (a ^^^ a') b = gf256MulCt a b ^^^ gf256MulCt a' b := by
  have h := mulRounds_xor_left 8 a a' b 0 0
  rwa [UInt8.xor_zero] at h

theorem mulCt_xor_right (a b b' : UInt8) :
    gf256MulCt a (b ^^^ b') = gf256MulCt a b ^^^ gf256MulCt a b' := by
  have h := mulRounds_xor_right 8 a b b' 0 0
  rwa [UInt8.xor_zero] at h

theorem mulCt_zero (a : UInt8) : gf256MulCt a 0 = 0 := by
  have h := mulCt_xor_right a 0 0
  rw [UInt8.xor_zero, UInt8.xor_self] at h
  exact h

/-! ## Commutativity, associativity and the unit, from eight bytes -/

/-- The byte `1 <<< i`. -/
def bitByte (i : Fin 8) : UInt8 := 1 <<< UInt8.ofNat i

/-- A property that `^^^` preserves holds of every byte once it holds of 0 and of the eight
bytes with one bit. -/
theorem byte_induction {P : UInt8 → Prop} (h0 : P 0) (hxor : ∀ a b, P a → P b → P (a ^^^ b))
    (hbit : ∀ i, P (bitByte i)) (a : UInt8) : P a := by
  have hsum : ∀ a : UInt8, a = (List.finRange 8).foldr
      (fun i s => (if a &&& bitByte i = 0 then 0 else bitByte i) ^^^ s) 0 :=
    forall_byte (by decide +kernel)
  rw [hsum a]
  generalize List.finRange 8 = l
  induction l with
  | nil => exact h0
  | cons i l ih =>
    rw [List.foldr_cons]
    refine hxor _ _ ?_ ih
    split
    · exact h0
    · exact hbit i

theorem mulCt_comm (a b : UInt8) : gf256MulCt a b = gf256MulCt b a := by
  have hz : ∀ b, gf256MulCt 0 b = gf256MulCt b 0 := fun b => by
    have h := mulCt_xor_left 0 0 b
    rw [UInt8.xor_self, UInt8.xor_self] at h
    rw [h, mulCt_zero]
  induction a using byte_induction with
  | h0 => exact hz b
  | hxor a a' ha ha' => rw [mulCt_xor_left, mulCt_xor_right, ha, ha']
  | hbit i =>
    induction b using byte_induction with
    | h0 => exact (hz _).symm
    | hxor b b' hb hb' => rw [mulCt_xor_left, mulCt_xor_right, hb, hb']
    | hbit j =>
      revert i j
      decide +kernel

theorem mulCt_xtime (a b : UInt8) : gf256MulCt a (xtime b) = xtime (gf256MulCt a b) := by
  have h0 : xtime 0 = 0 := by decide +kernel
  induction b using byte_induction with
  | h0 => rw [h0, mulCt_zero, h0]
  | hxor b b' hb hb' => rw [xtime_xor, mulCt_xor_right, mulCt_xor_right, xtime_xor, hb, hb']
  | hbit j =>
    induction a using byte_induction with
    | h0 => rw [mulCt_comm, mulCt_zero, mulCt_comm, mulCt_zero, h0]
    | hxor a a' ha ha' => rw [mulCt_xor_left, mulCt_xor_left, xtime_xor, ha, ha']
    | hbit i =>
      revert i j
      decide +kernel

theorem mulCt_one (a : UInt8) : gf256MulCt a 1 = a :=
  forall_byte (P := fun a => gf256MulCt a 1 = a) (by decide +kernel) a

/-- Multiplying by `1 <<< i` is `i` times `xtime`. -/
theorem mulCt_bitByte (a : UInt8) (i : Fin 8) : gf256MulCt a (bitByte i) = xtime^[i] a := by
  have hbit : ∀ i : Fin 8, bitByte i = xtime^[i] 1 := by decide +kernel
  rw [hbit i]
  generalize (i : Nat) = n
  induction n with
  | zero => exact mulCt_one a
  | succ n ih => rw [Function.iterate_succ_apply', Function.iterate_succ_apply', mulCt_xtime, ih]

theorem mulCt_assoc (a b c : UInt8) :
    gf256MulCt (gf256MulCt a b) c = gf256MulCt a (gf256MulCt b c) := by
  induction c using byte_induction with
  | h0 => rw [mulCt_zero, mulCt_zero, mulCt_zero]
  | hxor c c' hc hc' => rw [mulCt_xor_right, mulCt_xor_right, mulCt_xor_right, hc, hc']
  | hbit i =>
    rw [mulCt_bitByte, mulCt_bitByte]
    generalize (i : Nat) = n
    induction n with
    | zero => rfl
    | succ n ih => rw [Function.iterate_succ_apply', Function.iterate_succ_apply', mulCt_xtime, ih]

/-! ## The field -/

/-- A byte as an element of GF(2^8). -/
@[ext] structure Gf256 where
  byte : UInt8
  deriving DecidableEq

namespace Gf256

instance : Zero Gf256 := ⟨⟨0⟩⟩
instance : One Gf256 := ⟨⟨1⟩⟩
instance : Add Gf256 := ⟨fun a b => ⟨gf256Add a.byte b.byte⟩⟩
instance : Neg Gf256 := ⟨fun a => a⟩
instance : Mul Gf256 := ⟨fun a b => ⟨gf256Mul a.byte b.byte⟩⟩
instance : Inv Gf256 := ⟨fun a => ⟨gf256Inv a.byte⟩⟩

@[simp] theorem zero_byte : (0 : Gf256).byte = 0 := rfl

@[simp] theorem one_byte : (1 : Gf256).byte = 1 := rfl

@[simp] theorem add_byte (a b : Gf256) : (a + b).byte = a.byte ^^^ b.byte := rfl

@[simp] theorem mul_byte (a b : Gf256) : (a * b).byte = gf256MulCt a.byte b.byte :=
  gf256Mul_eq a.byte b.byte

theorem neg_eq (a : Gf256) : -a = a := rfl

theorem inv_byte (a : Gf256) : (a⁻¹).byte = gf256Inv a.byte := rfl

instance : CommRing Gf256 where
  add_assoc a b c := Gf256.ext (UInt8.xor_assoc _ _ _)
  zero_add a := Gf256.ext UInt8.zero_xor
  add_zero a := Gf256.ext UInt8.xor_zero
  add_comm a b := Gf256.ext (UInt8.xor_comm _ _)
  neg_add_cancel a := Gf256.ext UInt8.xor_self
  mul_assoc a b c := Gf256.ext (by simp only [mul_byte, mulCt_assoc])
  mul_comm a b := Gf256.ext (by simp only [mul_byte]; exact mulCt_comm _ _)
  one_mul a := Gf256.ext (by rw [mul_byte, mulCt_comm]; exact mulCt_one _)
  mul_one a := Gf256.ext (by rw [mul_byte]; exact mulCt_one _)
  zero_mul a := Gf256.ext (by rw [mul_byte, mulCt_comm]; exact mulCt_zero _)
  mul_zero a := Gf256.ext (by rw [mul_byte]; exact mulCt_zero _)
  left_distrib a b c := Gf256.ext (by simp only [mul_byte, add_byte, mulCt_xor_right])
  right_distrib a b c := Gf256.ext (by simp only [mul_byte, add_byte, mulCt_xor_left])
  nsmul := nsmulRec
  zsmul := zsmulRec

theorem add_self (a : Gf256) : a + a = 0 := Gf256.ext UInt8.xor_self

theorem sub_eq_add (a b : Gf256) : a - b = a + b := by rw [sub_eq_add_neg, neg_eq]

theorem sq_add (a b : Gf256) : (a + b) ^ 2 = a ^ 2 + b ^ 2 := by
  have h : (a + b) ^ 2 = a ^ 2 + b ^ 2 + (a * b + a * b) := by ring
  rw [h, add_self, add_zero]

/-- Squaring `n` times is additive. -/
theorem pow_two_pow_add (n : Nat) (a b : Gf256) :
    (a + b) ^ 2 ^ n = a ^ 2 ^ n + b ^ 2 ^ n := by
  induction n with
  | zero => simp
  | succ n ih => rw [pow_succ, pow_mul, pow_mul, pow_mul, ih, sq_add]

theorem pow_256 (a : Gf256) : a ^ 256 = a := by
  obtain ⟨a⟩ := a
  induction a using byte_induction with
  | h0 => exact zero_pow (by decide)
  | hxor a b ha hb =>
    calc (⟨a⟩ + ⟨b⟩ : Gf256) ^ 2 ^ 8 = ⟨a⟩ ^ 2 ^ 8 + ⟨b⟩ ^ 2 ^ 8 := pow_two_pow_add 8 _ _
      _ = ⟨a⟩ + ⟨b⟩ := congrArg₂ (· + ·) ha hb
  | hbit i =>
    have sq : ∀ a : Gf256, a ^ 256 = (fun b => b * b)^[8] a := fun a => by
      simp only [Function.iterate_succ_apply, Function.iterate_zero_apply]
      ring
    rw [sq]
    apply Gf256.ext
    have byte : ∀ n (a : UInt8), ((fun b : Gf256 => b * b)^[n] ⟨a⟩).byte =
        (fun b => gf256MulCt b b)^[n] a := fun n => by
      induction n with
      | zero => exact fun a => rfl
      | succ n ih =>
        intro a
        rw [Function.iterate_succ_apply', Function.iterate_succ_apply', mul_byte, ih]
    rw [byte]
    revert i
    decide +kernel

theorem eq_zero_or_one_of_idempotent {e : Gf256} (h : e * e = e) : e = 0 ∨ e = 1 := by
  have hb : ∀ b : UInt8, gf256MulCt b b = b → b = 0 ∨ b = 1 := forall_byte (by decide +kernel)
  have he : gf256MulCt e.byte e.byte = e.byte := by rw [← mul_byte, h]
  exact (hb e.byte he).imp Gf256.ext Gf256.ext

/-- Fermat's little theorem in GF(2^8). -/
theorem pow_255 {a : Gf256} (ha : a ≠ 0) : a ^ 255 = 1 := by
  have hidem : a ^ 255 * a ^ 255 = a ^ 255 := by
    calc a ^ 255 * a ^ 255 = a ^ 256 * a ^ 254 := by ring
      _ = a * a ^ 254 := by rw [pow_256]
      _ = a ^ 255 := by ring
  refine (eq_zero_or_one_of_idempotent hidem).resolve_left fun h => ha ?_
  rw [← pow_256 a, pow_succ, h, zero_mul]

/-- The chain of `gf256_inv` computes `a^254`. -/
theorem inv_eq_pow {a : Gf256} (ha : a ≠ 0) : a⁻¹ = a ^ 254 := by
  have hb : a.byte ≠ 0 := fun h => ha (Gf256.ext h)
  have hchain : a⁻¹ = (fun a127 => a127 * a127) ((fun a63 => a63 * a63 * a) ((fun a31 =>
      a31 * a31 * a) ((fun a15 => a15 * a15 * a) ((fun a7 => a7 * a7 * a) ((fun a3 =>
      a3 * a3 * a) (a * a * a)))))) := by
    apply Gf256.ext
    rw [inv_byte, gf256Inv, if_neg hb]
    rfl
  rw [hchain]
  ring

theorem mul_inv_cancel {a : Gf256} (ha : a ≠ 0) : a * a⁻¹ = 1 := by
  rw [inv_eq_pow ha, ← pow_succ', pow_255 ha]

instance : Field Gf256 where
  exists_pair_ne := ⟨0, 1, fun h => absurd (congrArg byte h) (by decide)⟩
  mul_inv_cancel _ := mul_inv_cancel
  inv_zero := Gf256.ext (by rw [inv_byte, gf256Inv, if_pos zero_byte, zero_byte])
  nnqsmul := _
  nnqsmul_def := fun _ _ => rfl
  qsmul := _
  qsmul_def := fun _ _ => rfl

end Gf256

/-! ## The coded functions are the field's operations -/

theorem gf256Mul_byte (a b : UInt8) : (⟨gf256Mul a b⟩ : Gf256) = ⟨a⟩ * ⟨b⟩ := rfl

theorem gf256Inv_byte (a : UInt8) : (⟨gf256Inv a⟩ : Gf256) = (⟨a⟩)⁻¹ := rfl

/-- **`gf256_div` divides**, whenever the divisor is not zero. -/
theorem gf256Div_ok (a : UInt8) {b : UInt8} (hb : b ≠ 0) :
    gf256Div a b = .ok ((⟨a⟩ / ⟨b⟩ : Gf256).byte) := by
  unfold gf256Div
  rw [if_neg hb, div_eq_mul_inv, ← gf256Inv_byte, ← gf256Mul_byte]

end Llamenos.Crypto.Shamir

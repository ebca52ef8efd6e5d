import Mathlib.Algebra.Order.Ring.Nat
import Mathlib.Data.List.Induction
import Mathlib.Tactic.Ring

/-!
# Big-endian byte strings

`toBe w n` is the last `w` base-256 digits of `n`, most significant first; `ofBe` reads a byte
string back.

Results:
* `ofBe_toBe`: what was written is read back, up to the digits that do not fit.
* `ofBe_replicate_zero`, `drop_toBe`: leading zeros do not count, and dropping leading digits
  leaves the shorter form.
* `toBe_inj`: numbers that fit are told apart.
-/

namespace Llamenos.Lib

/-- The number that a byte string spells, most significant byte first. -/
def ofBe (bs : List UInt8) : Nat := bs.foldl (fun n b => n * 256 + b.toNat) 0

/-- The last `w` base-256 digits of `n`, most significant first. -/
def toBe : Nat → Nat → List UInt8
  | 0, _ => []
  | w + 1, n => toBe w (n / 256) ++ [UInt8.ofNat n]

@[simp] theorem length_toBe (w n : Nat) : (toBe w n).length = w := by
  induction w generalizing n with
  | zero => rfl
  | succ w ih => rw [toBe, List.length_append, ih, List.length_singleton]

theorem ofBe_concat (bs : List UInt8) (b : UInt8) : ofBe (bs ++ [b]) = ofBe bs * 256 + b.toNat := by
  simp [ofBe, List.foldl_append]

theorem ofBe_toBe (w n : Nat) : ofBe (toBe w n) = n % 256 ^ w := by
  induction w generalizing n with
  | zero => rw [toBe, Nat.pow_zero, Nat.mod_one]; rfl
  | succ w ih =>
    have hdigit : (UInt8.ofNat n).toNat = n % 256 := UInt8.toNat_ofNat'
    rw [toBe, ofBe_concat, ih, hdigit, Nat.pow_succ', Nat.mod_mul]
    omega

theorem ofBe_toBe_of_lt {w n : Nat} (h : n < 256 ^ w) : ofBe (toBe w n) = n := by
  rw [ofBe_toBe, Nat.mod_eq_of_lt h]

theorem ofBe_append (as bs : List UInt8) :
    ofBe (as ++ bs) = ofBe as * 256 ^ bs.length + ofBe bs := by
  induction bs using List.reverseRecOn with
  | nil => simp [ofBe]
  | append_singleton bs b ih =>
    rw [← List.append_assoc, ofBe_concat, ofBe_concat, ih, List.length_append,
      List.length_singleton]
    ring

/-- Leading zeros do not count. -/
theorem ofBe_replicate_zero (k : Nat) (bs : List UInt8) :
    ofBe (List.replicate k 0 ++ bs) = ofBe bs := by
  have hzero : ofBe (List.replicate k 0) = 0 := by
    induction k with
    | zero => rfl
    | succ k ih => rw [List.replicate_succ', ofBe_concat, ih]; rfl
  rw [ofBe_append, hzero, Nat.zero_mul, Nat.zero_add]

theorem drop_toBe (k w n : Nat) : (toBe (k + w) n).drop k = toBe w n := by
  induction w generalizing n with
  | zero => exact List.drop_of_length_le (by simp)
  | succ w ih =>
    rw [← Nat.add_assoc, toBe, toBe, List.drop_append_of_le_length (by simp), ih]

theorem toBe_inj {w n m : Nat} (hn : n < 256 ^ w) (hm : m < 256 ^ w) :
    toBe w n = toBe w m ↔ n = m := by
  refine ⟨fun h => ?_, fun h => by rw [h]⟩
  rw [← ofBe_toBe_of_lt hn, h, ofBe_toBe_of_lt hm]

end Llamenos.Lib

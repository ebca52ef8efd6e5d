import Mathlib.LinearAlgebra.Lagrange

/-!
# Polynomial secret sharing over a field

A dealer hides `s` as the constant term of `dealPoly s c`, the polynomial with coefficients `c`
above it, and hands out its values at nonzero points.

* `eval_zero_eq_lagrange`: more points than the degree determine the constant term, by
  Lagrange's formula at 0.
* `eval_dealPoly_shift`: for `n` or fewer nonzero points and any second secret `s'`, adding the
  fixed vector `hidingShift` to the `n` coefficients turns a sharing of `s` into a sharing of
  `s'` with the same values at those points. A translation is a bijection, so the points carry
  no information about the secret.

The translation comes from `mask T`, the polynomial of degree `#T` that is 1 at 0 and 0 on `T`.
-/

namespace Llamenos.Lib.SecretSharing

open Polynomial

variable {F : Type*} [Field F]

/-- `s + c 0 · X + c 1 · X² + … + c (n-1) · Xⁿ`. -/
noncomputable def dealPoly {n : ℕ} (s : F) (c : Fin n → F) : F[X] :=
  C s + ∑ i, C (c i) * X ^ ((i : ℕ) + 1)

variable {n : ℕ}

theorem eval_dealPoly (s x : F) (c : Fin n → F) :
    (dealPoly s c).eval x = s + ∑ i, c i * x ^ ((i : ℕ) + 1) := by
  simp [dealPoly, eval_finsetSum]

theorem eval_zero_dealPoly (s : F) (c : Fin n → F) : (dealPoly s c).eval 0 = s := by
  simp [eval_dealPoly]

theorem dealPoly_add (s t : F) (c d : Fin n → F) :
    dealPoly (s + t) (c + d) = dealPoly s c + dealPoly t d := by
  simp only [dealPoly, Pi.add_apply, map_add, add_mul, Finset.sum_add_distrib]
  ring

theorem degree_dealPoly_lt (s : F) (c : Fin n → F) : (dealPoly s c).degree < (n + 1 : ℕ) := by
  have hC : (C s : F[X]).degree < (n + 1 : ℕ) :=
    lt_of_le_of_lt degree_C_le (by exact_mod_cast Nat.succ_pos n)
  refine lt_of_le_of_lt (degree_add_le _ _) (max_lt hC ?_)
  refine lt_of_le_of_lt (degree_sum_le _ _) ((Finset.sup_lt_iff (WithBot.bot_lt_coe _)).mpr ?_)
  intro i _
  refine lt_of_le_of_lt (degree_C_mul_X_pow_le _ _) ?_
  exact_mod_cast Nat.succ_lt_succ i.isLt

/-- A polynomial of degree at most `n` is dealt by its own coefficients. -/
theorem dealPoly_coeff {p : F[X]} (hp : p.natDegree ≤ n) :
    dealPoly (p.coeff 0) (fun i : Fin n => p.coeff (i + 1)) = p := by
  conv_rhs => rw [p.as_sum_range_C_mul_X_pow' (Nat.lt_succ_of_le hp)]
  rw [Finset.sum_range_succ', ← Fin.sum_univ_eq_sum_range
    (fun i => C (p.coeff (i + 1)) * X ^ (i + 1))]
  simp [dealPoly, add_comm]

/-! ## Reconstruction -/

/-- **Lagrange interpolation at 0.** A polynomial of degree below the number of points has the
constant term that its values at the points give. -/
theorem eval_zero_eq_lagrange {ι : Type*} [DecidableEq ι] {t : Finset ι} {v : ι → F} {p : F[X]}
    (hv : Set.InjOn v t) (hp : p.degree < t.card) :
    p.eval 0 = ∑ i ∈ t, p.eval (v i) *
      ((∏ j ∈ t.erase i, (0 - v j)) / ∏ j ∈ t.erase i, (v i - v j)) := by
  conv_lhs => rw [Lagrange.eq_interpolate hv hp]
  rw [Lagrange.interpolate_apply, eval_finsetSum]
  refine Finset.sum_congr rfl fun i _ => ?_
  rw [eval_mul, eval_C, Lagrange.basis, eval_prod, ← Finset.prod_div_distrib]
  congr 1
  refine Finset.prod_congr rfl fun j _ => ?_
  simp only [Lagrange.basisDivisor, eval_mul, eval_C, eval_sub, eval_X]
  rw [div_eq_mul_inv, mul_comm]

/-! ## Hiding -/

/-- The polynomial that is 1 at 0 and vanishes on `T`. -/
noncomputable def mask (T : Finset F) : F[X] := ∏ x ∈ T, (1 - C x⁻¹ * X)

theorem eval_zero_mask (T : Finset F) : (mask T).eval 0 = 1 := by
  simp [mask, eval_prod]

theorem eval_mask_eq_zero {T : Finset F} (h0 : (0 : F) ∉ T) {x : F} (hx : x ∈ T) :
    (mask T).eval x = 0 := by
  have hne : x ≠ 0 := fun h => h0 (h ▸ hx)
  rw [mask, eval_prod]
  refine Finset.prod_eq_zero hx ?_
  simp [inv_mul_cancel₀ hne]

theorem natDegree_mask_le (T : Finset F) : (mask T).natDegree ≤ T.card := by
  have h1 : ∀ x : F, (1 - C x⁻¹ * X : F[X]).natDegree ≤ 1 := fun x => by
    refine (natDegree_sub_le _ _).trans (max_le (by simp) ?_)
    exact (natDegree_C_mul_le _ _).trans natDegree_X_le
  calc (mask T).natDegree ≤ ∑ x ∈ T, (1 - C x⁻¹ * X : F[X]).natDegree := natDegree_prod_le _ _
    _ ≤ ∑ _x ∈ T, 1 := Finset.sum_le_sum fun x _ => h1 x
    _ = T.card := by simp

/-- What has to be added to the coefficients of a sharing of `s` to share `s'` instead, without
moving the values on `T`. -/
noncomputable def hidingShift (n : ℕ) (T : Finset F) (s s' : F) : Fin n → F :=
  fun i => (C (s' - s) * mask T).coeff (i + 1)

/-- **Hiding.** On at most `n` nonzero points, a sharing of `s` with coefficients `c` and one of
`s'` with the translated coefficients `c + hidingShift` cannot be told apart. -/
theorem eval_dealPoly_shift {T : Finset F} (h0 : (0 : F) ∉ T) (hT : T.card ≤ n) (s s' : F)
    (c : Fin n → F) {x : F} (hx : x ∈ T) :
    (dealPoly s' (c + hidingShift n T s s')).eval x = (dealPoly s c).eval x := by
  have hdeg : (C (s' - s) * mask T).natDegree ≤ n :=
    (natDegree_C_mul_le _ _).trans ((natDegree_mask_le T).trans hT)
  have hcoeff : (C (s' - s) * mask T).coeff 0 = s' - s := by
    rw [coeff_C_mul, coeff_zero_eq_eval_zero, eval_zero_mask, mul_one]
  have hsum : dealPoly s' (c + hidingShift n T s s') =
      dealPoly s c + C (s' - s) * mask T := by
    conv_rhs => rw [← dealPoly_coeff hdeg, hcoeff]
    rw [← dealPoly_add, add_sub_cancel]
    rfl
  rw [hsum, eval_add, eval_mul, eval_mask_eq_zero h0 hx, mul_zero, add_zero]

end Llamenos.Lib.SecretSharing

import Mathlib.Data.List.Nodup
import Mathlib.Logic.Function.Basic

/-!
# Exclusive holders

A table of parties, each of which holds some keys: `holds` says which, by the party's state. The
holders are exclusive if no party holds a key twice, and no two parties hold the same one.

Results:
* `exclusive_none`: nobody holds anything.
* `Exclusive.update`: a party may take what nobody else holds.
* `Exclusive.shrink`: a party may let go.
-/

namespace Llamenos.Lib.Holders

variable {ι τ κ : Type} {holds : τ → List κ} {table : ι → Option τ}

/-- No key is held twice. -/
structure Exclusive (holds : τ → List κ) (table : ι → Option τ) : Prop where
  nodup : ∀ i t, table i = some t → (holds t).Nodup
  apart : ∀ i j t u, table i = some t → table j = some u → ∀ k ∈ holds t, k ∈ holds u → i = j

theorem exclusive_none : Exclusive holds fun _ : ι => none where
  nodup _ _ h := by cases h
  apart _ _ _ _ h := by cases h

variable [DecidableEq ι]

/-- **A party may take what nobody else holds.** -/
theorem Exclusive.update (h : Exclusive holds table) {i : ι} {entry : Option τ}
    (hnodup : ∀ t, entry = some t → (holds t).Nodup)
    (hfree : ∀ t, entry = some t → ∀ k ∈ holds t, ∀ j u, j ≠ i → table j = some u → k ∉ holds u) :
    Exclusive holds (Function.update table i entry) where
  nodup j t hj := by
    by_cases hji : j = i
    · rw [hji, Function.update_self] at hj
      exact hnodup t hj
    · rw [Function.update_of_ne hji] at hj
      exact h.nodup j t hj
  apart j l t u hj hl k hkt hku := by
    by_cases hji : j = i <;> by_cases hli : l = i
    · rw [hji, hli]
    · rw [hji, Function.update_self] at hj
      rw [Function.update_of_ne hli] at hl
      exact absurd hku (hfree t hj k hkt l u hli hl)
    · rw [hli, Function.update_self] at hl
      rw [Function.update_of_ne hji] at hj
      exact absurd hkt (hfree u hl k hku j t hji hj)
    · rw [Function.update_of_ne hji] at hj
      rw [Function.update_of_ne hli] at hl
      exact h.apart j l t u hj hl k hkt hku

/-- **A party may let go** of what it holds. -/
theorem Exclusive.shrink (h : Exclusive holds table) {i : ι} {t : τ} (hi : table i = some t)
    {entry : Option τ} (hsub : ∀ u, entry = some u → (holds u).Sublist (holds t)) :
    Exclusive holds (Function.update table i entry) := by
  refine h.update (fun u hu => ?_) fun u hu k hk j v hji hj hkv => ?_
  · exact (h.nodup i t hi).sublist (hsub u hu)
  · exact hji (h.apart j i v t hj hi k hkv ((hsub u hu).subset hk))

end Llamenos.Lib.Holders

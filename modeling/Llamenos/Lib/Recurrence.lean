import Mathlib.Data.Int.ModEq
import Mathlib.Data.List.MinMax
import Mathlib.Tactic.LinearCombination
import Mathlib.Tactic.Ring

/-!
# Recurring times

A time recurs when it comes again after each period, before and after any moment. A stretch of time
of a fixed length may begin at each recurrence. Times are integers, in units that may be coarser
than those of the moments: a clock that shows whole minutes, say.

Results:
* `covered_iff_emod`: **whether a moment is in one of the stretches**, by the remainder.
* `next_eq_iff`: the first recurrence after a moment is the one that comes within a period.
* `covered_mul`, `next_mul`: a clock of coarser units tells the same.
* `foldl_keepLeast`: a loop that keeps the first of the least finds `List.argmin`.
-/

namespace Llamenos.Lib.Recurrence

variable {period start length t u : Int}

/-! ## Stretches -/

/-- The moment is in a stretch of the length that begins when the start recurs. -/
def Covered (period start length t : Int) : Prop :=
  ∃ u, u ≡ start [ZMOD period] ∧ u ≤ t ∧ t < u + length

/-- **Whether a moment is in one of the stretches.** -/
theorem covered_iff_emod (hperiod : 0 < period) (hlength : length ≤ period) :
    Covered period start length t ↔ (t - start) % period < length := by
  have hnonneg := Int.emod_nonneg (t - start) hperiod.ne'
  constructor
  · rintro ⟨u, hu, hle, hlt⟩
    have hshift : t - start ≡ t - u [ZMOD period] := (Int.ModEq.refl t).sub hu.symm
    rw [hshift.eq, Int.emod_eq_of_lt (by omega) (by omega)]
    omega
  · intro h
    refine ⟨t - (t - start) % period, ?_, by omega, by omega⟩
    have hmod : (t - start) % period ≡ t - start [ZMOD period] := Int.mod_modEq _ _
    calc t - (t - start) % period
        ≡ t - (t - start) [ZMOD period] := (Int.ModEq.refl t).sub hmod
      _ = start := by ring

/-! ## The next recurrence -/

/-- The first recurrence of the start after a moment. -/
def next (period start t : Int) : Int := t + period - (t - start) % period

theorem next_modEq : next period start t ≡ start [ZMOD period] := by
  have hmod : (t - start) % period ≡ t - start [ZMOD period] := Int.mod_modEq _ _
  calc next period start t
      ≡ t + period - (t - start) [ZMOD period] := (Int.ModEq.refl (t + period)).sub hmod
    _ = start + period := by ring
    _ ≡ start [ZMOD period] := Int.add_modEq_right

theorem lt_next (hperiod : 0 < period) : t < next period start t := by
  have := Int.emod_lt_of_pos (t - start) hperiod
  unfold next
  omega

theorem next_le (hperiod : 0 < period) : next period start t ≤ t + period := by
  have := Int.emod_nonneg (t - start) hperiod.ne'
  unfold next
  omega

/-- Two recurrences less than a period apart are one. -/
theorem eq_of_modEq {v : Int} (hmod : u ≡ v [ZMOD period]) (huv : u < v + period)
    (hvu : v < u + period) : u = v := by
  obtain ⟨k, hk⟩ := hmod.symm.dvd
  rcases lt_trichotomy k 0 with hneg | rfl | hpos
  · have : period * k ≤ period * (-1) := Int.mul_le_mul_of_nonneg_left (by omega) (by omega)
    omega
  · omega
  · have : period * 1 ≤ period * k := Int.mul_le_mul_of_nonneg_left (by omega) (by omega)
    omega

/-- **The first recurrence after a moment is the one that comes within a period.** -/
theorem next_eq_iff (hperiod : 0 < period) :
    next period start t = u ↔ u ≡ start [ZMOD period] ∧ t < u ∧ u ≤ t + period := by
  constructor
  · rintro rfl
    exact ⟨next_modEq, lt_next hperiod, next_le hperiod⟩
  · rintro ⟨hmod, hlt, hle⟩
    have hlt' : t < next period start t := lt_next hperiod
    have hle' : next period start t ≤ t + period := next_le hperiod
    exact eq_of_modEq (next_modEq.trans hmod.symm) (by omega) (by omega)

/-! ## A coarser clock -/

variable {c : Int}

/-- A clock of coarser units tells whether a moment is in a stretch. -/
theorem covered_mul (hc : 0 < c) :
    Covered (c * period) (c * start) (c * length) t ↔ Covered period start length (t / c) := by
  constructor
  · rintro ⟨u, hu, hle, hlt⟩
    obtain ⟨k, hk⟩ := hu.symm.dvd
    have hu' : u = c * (start + period * k) := by linear_combination hk
    refine ⟨start + period * k, ?_, ?_, ?_⟩
    · exact (Int.modEq_iff_dvd.mpr ⟨-k, by ring⟩)
    · rw [Int.le_ediv_iff_mul_le hc, mul_comm, ← hu']
      exact hle
    · rw [Int.ediv_lt_iff_lt_mul hc, mul_comm, mul_add, ← hu']
      exact hlt
  · rintro ⟨u, hu, hle, hlt⟩
    refine ⟨c * u, hu.mul_left', ?_, ?_⟩
    · rw [mul_comm]
      exact (Int.le_ediv_iff_mul_le hc).mp hle
    · rw [← mul_add, mul_comm]
      exact (Int.ediv_lt_iff_lt_mul hc).mp hlt

/-- A clock of coarser units tells the next recurrence. -/
theorem next_mul (hc : 0 < c) (hperiod : 0 < period) :
    next (c * period) (c * start) t = c * next period start (t / c) := by
  refine (next_eq_iff (Int.mul_pos hc hperiod)).mpr ⟨next_modEq.mul_left', ?_, ?_⟩
  · have hlt : t / c < next period start (t / c) := lt_next hperiod
    rw [mul_comm]
    exact (Int.ediv_lt_iff_lt_mul hc).mp hlt
  · have hnext : next period start (t / c) ≤ t / c + period := next_le hperiod
    have hle := Int.mul_le_mul_of_nonneg_left hnext hc.le
    have := Int.mul_ediv_self_le (x := t) hc.ne'
    rw [mul_add] at hle
    omega

/-! ## The least of many -/

section Least

variable {α : Type} {β : Type} [LinearOrder β]

/-- One round of a loop that keeps what has the least value so far, the first of equals. -/
def keepLeast (f : α → β) (best : Option α) (a : α) : Option α :=
  match best with
  | none => some a
  | some b => if f a < f b then some a else some b

/-- **A loop that keeps the first of the least finds the least.** -/
theorem foldl_keepLeast (f : α → β) (l : List α) :
    l.foldl (keepLeast f) none = l.argmin f := by
  have hround : keepLeast f = List.argAux fun b c => f b < f c := by
    funext best a
    cases best <;> rfl
  rw [hround]
  rfl

end Least

end Llamenos.Lib.Recurrence

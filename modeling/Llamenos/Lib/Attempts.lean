import Llamenos.Lib.Runs

/-!
# Attempts that are counted after they are made

A limit on attempts, kept with a stored counter. An attempt is made where the counter is found
below the limit, and stores one more than it has found later, whatever the counter is by then. The
attempts overlap as they like.

Results:
* `Exact.step`: where no attempt is made while another one is yet to be counted, **the counter and
  the one under way count all of them**.
* `Behind.step`: in any case, the counter is behind with those under way.
-/

namespace Llamenos.Lib.Attempts

/-- The counter, if it is there, and what the attempts under way will store. -/
structure View (ι : Type) where
  counter : Option Nat
  pending : ι → Option Nat

variable {ι : Type}

/-- What a step may do, and how many attempts it makes. -/
inductive Step [DecidableEq ι] (limit : Nat) (v : View ι) : View ι → Nat → Prop where
  | attempt (i : ι) (a : Nat) (hcounter : v.counter = some a) (hlimit : a < limit)
      (hfree : v.pending i = none) :
      Step limit v { v with pending := Function.update v.pending i (some (a + 1)) } 1
  | store (i : ι) (n : Nat) (hpending : v.pending i = some n) :
      Step limit v
        ⟨v.counter.map fun _ => n, Function.update v.pending i none⟩ 0
  | create (hcounter : v.counter = none) : Step limit v { v with counter := some 0 } 0
  | rest : Step limit v v 0

variable {limit made n : Nat} {v v' : View ι}

/-- Who still has something under way, once one has come to its end. -/
theorem still_pending [DecidableEq ι] {pending : ι → Option Nat} {i j : ι}
    (h : Function.update pending i none j ≠ none) : j ≠ i ∧ pending j ≠ none := by
  obtain ⟨m, hm⟩ := Option.ne_none_iff_exists'.mp h
  rcases Runs.update_eq_some hm with ⟨-, hm⟩ | ⟨hne, hm⟩
  · cases hm
  · exact ⟨hne, by rw [hm]; exact Option.some_ne_none m⟩

/-! ## One at a time -/

/-- All the attempts that were made are counted, or the one under way will count the last. -/
structure Exact (limit : Nat) (v : View ι) (made : Nat) : Prop where
  le : made ≤ limit
  absent : v.counter = none → made = 0 ∧ ∀ i, v.pending i = none
  counted : (∀ i, v.pending i = none) → ∀ a, v.counter = some a → a = made
  counting : ∀ i m, v.pending i = some m → m = made ∧ ∀ j, v.pending j ≠ none → j = i

theorem exact_none (limit : Nat) : Exact limit (⟨none, fun _ => none⟩ : View ι) 0 where
  le := Nat.zero_le limit
  absent _ := ⟨rfl, fun _ => rfl⟩
  counted _ a h := by cases h
  counting i m h := by cases h

/-- **Attempts that come one at a time are counted.** -/
theorem Exact.step [DecidableEq ι] (h : Exact limit v made) (hstep : Step limit v v' n)
    (halone : n ≠ 0 → ∀ i, v.pending i = none) : Exact limit v' (made + n) := by
  cases hstep with
  | attempt i a hcounter hlimit hfree =>
    have hnone := halone Nat.one_ne_zero
    obtain rfl := h.counted hnone a hcounter
    refine ⟨hlimit, fun habsent => ?_, fun hall => ?_, fun j m hj => ?_⟩
    · rw [hcounter] at habsent
      cases habsent
    · cases (Function.update_self i (some (a + 1)) v.pending).symm.trans (hall i)
    · rcases Runs.update_eq_some hj with ⟨rfl, hm⟩ | ⟨-, hj⟩
      · refine ⟨(Option.some.inj hm).symm, fun k hk => ?_⟩
        by_contra hne
        exact hk ((Function.update_of_ne hne _ _).trans (hnone k))
      · rw [hnone] at hj
        cases hj
  | store i m hpending =>
    obtain ⟨rfl, honly⟩ := h.counting i m hpending
    refine ⟨h.le, fun habsent => ?_, fun _ a ha => ?_, fun j m' hj => ?_⟩
    · have hnone := (h.absent (Option.map_eq_none_iff.mp habsent)).2 i
      rw [hpending] at hnone
      cases hnone
    · obtain ⟨_, -, rfl⟩ := Option.map_eq_some_iff.mp ha
      rfl
    · rcases Runs.update_eq_some hj with ⟨-, hm⟩ | ⟨hne, hj⟩
      · cases hm
      · exact absurd (honly j (by rw [hj]; exact Option.some_ne_none m')) hne
  | create hcounter =>
    obtain ⟨rfl, hnone⟩ := h.absent hcounter
    refine ⟨h.le, (fun habsent => by cases habsent), fun _ a ha => (Option.some.inj ha).symm,
      h.counting⟩
  | rest => exact h

/-! ## Overlapping -/

/-- The counter is behind with each attempt that has yet to be counted. -/
structure Behind (v : View ι) (made : Nat) : Prop where
  absent : v.counter = none → ∀ i, v.pending i = none
  counter : ∀ a, v.counter = some a → a ≤ made
  behind : ∀ a, v.counter = some a → ∀ i, v.pending i ≠ none → a < made
  pending : ∀ i m, v.pending i = some m → m ≤ made
  lt : ∀ i m, v.pending i = some m → ∀ j, j ≠ i → v.pending j ≠ none → m < made

theorem behind_none : Behind (⟨none, fun _ => none⟩ : View ι) 0 where
  absent _ _ := rfl
  counter a h := by cases h
  behind a h := by cases h
  pending i m h := by cases h
  lt i m h := by cases h

/-- **The counter stays behind**, however the attempts overlap. -/
theorem Behind.step [DecidableEq ι] (h : Behind v made) (hstep : Step limit v v' n) :
    Behind v' (made + n) := by
  cases hstep with
  | attempt i a hcounter hlimit hfree =>
    refine ⟨fun habsent => ?_, fun b hb => Nat.le_succ_of_le (h.counter b hb),
      fun b hb _ _ => Nat.lt_succ_of_le (h.counter b hb), fun j m hj => ?_,
      fun j m hj k hkj hk => ?_⟩
    · rw [hcounter] at habsent
      cases habsent
    · rcases Runs.update_eq_some hj with ⟨rfl, hm⟩ | ⟨-, hj⟩
      · obtain rfl := Option.some.inj hm
        exact Nat.succ_le_succ (h.counter a hcounter)
      · exact Nat.le_succ_of_le (h.pending j m hj)
    · rcases Runs.update_eq_some hj with ⟨rfl, hm⟩ | ⟨-, hj⟩
      · obtain rfl := Option.some.inj hm
        have hk' : v.pending k ≠ none := fun hnone =>
          hk ((Function.update_of_ne hkj _ _).trans hnone)
        exact Nat.succ_lt_succ (h.behind a hcounter k hk')
      · exact Nat.lt_succ_of_le (h.pending j m hj)
  | store i m hpending =>
    refine ⟨fun habsent => ?_, fun a ha => ?_, fun a ha k hk => ?_, fun j m' hj => ?_,
      fun j m' hj k hkj hk => ?_⟩
    · have hnone := h.absent (Option.map_eq_none_iff.mp habsent) i
      rw [hpending] at hnone
      cases hnone
    · obtain ⟨_, -, rfl⟩ := Option.map_eq_some_iff.mp ha
      exact h.pending i m hpending
    · obtain ⟨_, -, rfl⟩ := Option.map_eq_some_iff.mp ha
      obtain ⟨hki, hk⟩ := still_pending hk
      exact h.lt i m hpending k hki hk
    · rcases Runs.update_eq_some hj with ⟨-, hm⟩ | ⟨-, hj⟩
      · cases hm
      · exact h.pending j m' hj
    · rcases Runs.update_eq_some hj with ⟨-, hm⟩ | ⟨-, hj⟩
      · cases hm
      · exact h.lt j m' hj k hkj (still_pending hk).2
  | create hcounter =>
    have hnone := h.absent hcounter
    refine ⟨(fun habsent => by cases habsent), fun a ha => ?_, fun a _ i hi => absurd (hnone i) hi,
      h.pending, h.lt⟩
    obtain rfl := Option.some.inj ha
    exact Nat.zero_le _
  | rest => exact h

end Llamenos.Lib.Attempts

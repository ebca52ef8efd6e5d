import Mathlib.Logic.Function.Basic

/-!
# Row locks

A table of locks: each key is free, or locked by one party. A party takes the keys that it goes on
to write, one after the other, and lets all of them go when it ends.

Results:
* `Held`: what the table must be, by what the parties say they hold.
* `Held.take`, `Held.keep`, `Held.release`: a party may take a free key, go on with what it holds,
  and let everything go.
* `Held.locked_iff`, `Held.not_locked`: what is locked for a party, by how far it has come.
* `Held.one_holder`: two parties do not hold one key.
-/

namespace Llamenos.Lib.Locking

variable {κ τ : Type}

abbrev Locks (κ : Type) := κ → Option Nat

def Locks.take [DecidableEq κ] (locks : Locks κ) (k : κ) (c : Nat) : Locks κ :=
  Function.update locks k (some c)

def Locks.release (locks : Locks κ) (c : Nat) : Locks κ :=
  fun k => if locks k = some c then none else locks k

/-- A key is locked by the party that holds it. -/
def Held (holds : τ → κ → Prop) (locks : Locks κ) (table : Nat → Option τ) : Prop :=
  ∀ k c, locks k = some c ↔ ∃ t, table c = some t ∧ holds t k

variable {holds : τ → κ → Prop} {locks : Locks κ} {table : Nat → Option τ} {c : Nat}

theorem held_none : Held holds (fun _ => none) fun _ => none := by
  intro k c
  simp

/-- **Two parties do not hold one key.** -/
theorem Held.one_holder (h : Held holds locks table) {k : κ} {d : Nat} {t u : τ}
    (hc : table c = some t) (ht : holds t k) (hd : table d = some u) (hu : holds u k) : c = d :=
  Option.some.inj (((h k c).mpr ⟨t, hc, ht⟩).symm.trans ((h k d).mpr ⟨u, hd, hu⟩))

/-- What is locked for a party is what it says it holds. -/
theorem Held.locked_iff (h : Held holds locks table) {t : τ} (hc : table c = some t) (k : κ) :
    locks k = some c ↔ holds t k := by
  rw [h k c, hc]
  simp

/-- A party that has not begun holds nothing. -/
theorem Held.not_locked (h : Held holds locks table) (hc : table c = none) (k : κ) :
    locks k ≠ some c := by
  intro hlocked
  obtain ⟨t, ht, -⟩ := (h k c).mp hlocked
  rw [hc] at ht
  cases ht

/-- **A party may go on with what it holds.** -/
theorem Held.keep (h : Held holds locks table) {t : τ} (hsame : ∀ k, locks k = some c ↔ holds t k) :
    Held holds locks (Function.update table c (some t)) := by
  intro k d
  by_cases hd : d = c
  · subst hd
    rw [Function.update_self, hsame]
    simp
  · rw [Function.update_of_ne hd]
    exact h k d

/-- **A party may take a free key.** -/
theorem Held.take [DecidableEq κ] (h : Held holds locks table) {k : κ} (hfree : locks k = none)
    {t : τ} (hmore : ∀ j, holds t j ↔ j = k ∨ locks j = some c) :
    Held holds (locks.take k c) (Function.update table c (some t)) := by
  intro j d
  unfold Locks.take
  by_cases hd : d = c <;> by_cases hj : j = k
  · subst hd hj
    rw [Function.update_self, Function.update_self]
    simp [hmore]
  · subst hd
    rw [Function.update_of_ne hj, Function.update_self]
    simp [hmore, hj]
  · subst hj
    rw [Function.update_self, Function.update_of_ne hd, ← h j d, hfree]
    simp [Ne.symm hd]
  · rw [Function.update_of_ne hj, Function.update_of_ne hd]
    exact h j d

/-- **A party may let everything go.** -/
theorem Held.release (h : Held holds locks table) {t : τ} (hnone : ∀ k, ¬ holds t k) :
    Held holds (locks.release c) (Function.update table c (some t)) := by
  intro k d
  unfold Locks.release
  by_cases hd : d = c
  · subst hd
    rw [Function.update_self]
    by_cases hlocked : locks k = some d <;> simp [hlocked, hnone]
  · rw [Function.update_of_ne hd, ← h k d]
    by_cases hlocked : locks k = some c
    · simp [hlocked, Ne.symm hd]
    · simp [hlocked]

end Llamenos.Lib.Locking

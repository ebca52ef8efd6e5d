import Mathlib.Data.Option.Basic

/-!
# Reads through a cache

A value that writers change and readers cache for a time. The changes are counted: a list read from
the store is of the version it has been read in, and so is the cached one. A writer that has
returned relies on its change being seen: what is served from then on is to be of its version or a
later one.

What is said is said of a moment: what a reader that comes now is served from the cache.

Results:
* `fresh_act`: **the cache serves nothing that lacks a returned change**, after an act, exactly if
  the act is timely: a writer does not return while an older value is cached, and a reader does not
  cache a value that lacks the change of a writer that has returned.
-/

namespace Llamenos.Lib.CachedReads

/-- What matters of a state; `returned` is the newest version of a writer that has returned. -/
structure View where
  clock : Int
  version : Nat
  returned : Nat
  /-- The version of the cached value, and when it expires. -/
  cached : Option (Nat × Int)

inductive Act where
  | nothing
  | tick (ms : Nat)
  | change
  | finish (version : Nat)
  | store (version : Nat) (expiresAt : Int)
  | drop

def View.act (v : View) : Act → View
  | .nothing => v
  | .tick ms => { v with clock := v.clock + ms }
  | .change => { v with version := v.version + 1 }
  | .finish version => { v with returned := max v.returned version }
  | .store version expiresAt => { v with cached := some (version, expiresAt) }
  | .drop => { v with cached := none }

/-- What is served now is not older than the version. -/
def View.NotOlder (v : View) (version : Nat) : Prop :=
  ∀ cached ∈ v.cached, v.clock < cached.2 → version ≤ cached.1

/-- What is served now has the changes of all the writers that have returned. -/
def View.Fresh (v : View) : Prop := v.NotOlder v.returned

/-- The condition on an act. -/
def View.Timely (v : View) : Act → Prop
  | .finish version => v.NotOlder version
  | .store version expiresAt => v.clock < expiresAt → v.returned ≤ version
  | .nothing | .tick _ | .change | .drop => True

instance (v : View) (version : Nat) : Decidable (v.NotOlder version) :=
  inferInstanceAs (Decidable (∀ cached ∈ v.cached, v.clock < cached.2 → version ≤ cached.1))

instance (v : View) (a : Act) : Decidable (v.Timely a) :=
  match a with
  | .finish version => inferInstanceAs (Decidable (v.NotOlder version))
  | .store version expiresAt =>
    inferInstanceAs (Decidable (v.clock < expiresAt → v.returned ≤ version))
  | .nothing | .tick _ | .change | .drop => isTrue trivial

/-- **What is served after an act** lacks no returned change exactly if the act is timely. -/
theorem fresh_act {v : View} (hfresh : v.Fresh) (a : Act) : (v.act a).Fresh ↔ v.Timely a := by
  cases a with
  | nothing => exact iff_of_true hfresh trivial
  | change => exact iff_of_true hfresh trivial
  | drop => exact iff_of_true (fun cached hcached => absurd hcached (Option.not_mem_none _)) trivial
  | tick ms =>
    refine iff_of_true (fun cached hcached hclock => hfresh cached hcached ?_) trivial
    simp only [View.act] at hclock
    omega
  | finish version =>
    constructor
    · intro hnew cached hcached hclock
      have hboth : max v.returned version ≤ cached.1 := hnew cached hcached hclock
      exact (Nat.max_le.mp hboth).2
    · intro hnotOlder cached hcached hclock
      exact Nat.max_le.mpr ⟨hfresh cached hcached hclock, hnotOlder cached hcached hclock⟩
  | store version expiresAt =>
    constructor
    · exact fun hnew hclock => hnew (version, expiresAt) rfl hclock
    · rintro htimely cached hcached hclock
      obtain rfl := Option.some.inj hcached
      exact htimely hclock

end Llamenos.Lib.CachedReads

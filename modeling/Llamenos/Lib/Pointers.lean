import Mathlib.Logic.Function.Basic
import Mathlib.Logic.Relation

/-!
# Pointers that come to an end

What is there points to something else, or to nothing: `ptr a` is `none` where `a` is not there,
`some none` where it points to nothing, and `some (some b)` where it points to `b`. Who follows the
pointers comes to an end, unless they lead round in a circle, or to what is not there.

Results:
* `leads_update`, `leads_update_of_not`: a write at `k` keeps the ways to `k`, and those past it.
* `not_ends_of_circle`: from a circle there is no way to an end.
* `allEnd_insert`: something new points to nothing.
* `allEnd_link_iff`: **something may be made to point to another exactly if that one does not lead
  to it**.
* `allEnd_remove_iff`: **something may go exactly if nothing points to it**.
-/

namespace Llamenos.Lib.Pointers

open Relation

variable {κ : Type} {ptr : κ → Option (Option κ)} {a b k : κ}

/-- `a` is there, and points to `b`. -/
def Points (ptr : κ → Option (Option κ)) (a b : κ) : Prop := ptr a = some (some b)

/-- The pointers lead from `a` to `b`, in some steps or in none. -/
abbrev Leads (ptr : κ → Option (Option κ)) : κ → κ → Prop := ReflTransGen (Points ptr)

/-- Following the pointers from `a` comes to what points to nothing. -/
def Ends (ptr : κ → Option (Option κ)) (a : κ) : Prop := ∃ b, Leads ptr a b ∧ ptr b = some none

/-- From all that is there, following the pointers comes to an end. -/
def AllEnd (ptr : κ → Option (Option κ)) : Prop := ∀ a, ptr a ≠ none → Ends ptr a

/-- What points to nothing leads only to itself. -/
theorem leads_end_iff (h : ptr a = some none) : Leads ptr a b ↔ a = b := by
  constructor
  · intro hleads
    rcases hleads.cases_head with heq | ⟨c, hpoints, -⟩
    · exact heq
    · rw [Points, h] at hpoints
      cases hpoints
  · rintro rfl
    exact .refl

/-- A pointer leads where what it points to leads, or nowhere. -/
theorem leads_next_iff {c : κ} (h : ptr a = some (some c)) :
    Leads ptr a b ↔ a = b ∨ Leads ptr c b := by
  rw [Leads, ReflTransGen.cases_head_iff]
  refine or_congr_right ⟨?_, fun hleads => ⟨c, h, hleads⟩⟩
  rintro ⟨d, hpoints, hleads⟩
  obtain rfl : c = d := Option.some.inj (Option.some.inj (h.symm.trans hpoints))
  exact hleads

/-- From a circle there is no way out. -/
theorem not_ends_of_circle (hab : Points ptr a b) (hba : Leads ptr b a) : ¬ Ends ptr a := by
  -- whatever `a` leads to leads back to it
  have hback : ∀ c, Leads ptr a c → Leads ptr c a := by
    intro c hac
    induction hac with
    | refl => exact .refl
    | @tail c d _ hcd ih =>
      rcases ih.cases_head with rfl | ⟨e, hce, hea⟩
      · obtain rfl : b = d := Option.some.inj (Option.some.inj (hab.symm.trans hcd))
        exact hba
      · obtain rfl : e = d := Option.some.inj (Option.some.inj (hce.symm.trans hcd))
        exact hea
  rintro ⟨c, hac, hend⟩
  obtain rfl := (leads_end_iff hend).mp (hback c hac)
  rw [Points, hend] at hab
  cases hab

/-! ## Writes -/

section Update

variable [DecidableEq κ] {v : Option (Option κ)}

theorem points_update (hne : a ≠ k) (h : Points ptr a b) : Points (Function.update ptr k v) a b :=
  Eq.trans (Function.update_of_ne hne v ptr) h

/-- The ways to `k` do not notice a write at `k`. -/
theorem leads_update (h : Leads ptr a k) : Leads (Function.update ptr k v) a k := by
  induction h using ReflTransGen.head_induction_on with
  | refl => exact .refl
  | @head a c hac _ ih =>
    by_cases hak : a = k
    · exact hak ▸ .refl
    · exact .head (points_update hak hac) ih

/-- Neither do those that do not come past it. -/
theorem leads_update_of_not (hk : ¬ Leads ptr a k) (h : Leads ptr a b) :
    Leads (Function.update ptr k v) a b := by
  induction h using ReflTransGen.head_induction_on with
  | refl => exact .refl
  | @head a c hac _ ih =>
    have hak : a ≠ k := fun heq => hk (heq ▸ .refl)
    exact .head (points_update hak hac) (ih fun hck => hk (.head hac hck))

theorem ends_update_of_not (hk : ¬ Leads ptr a k) (h : Ends ptr a) :
    Ends (Function.update ptr k v) a := by
  obtain ⟨b, hab, hend⟩ := h
  have hbk : b ≠ k := fun heq => hk (heq ▸ hab)
  exact ⟨b, leads_update_of_not hk hab, (Function.update_of_ne hbk v ptr).trans hend⟩

/-- All still come to an end if `k` does, and what it is not on the way of was there before. -/
theorem allEnd_update (h : AllEnd ptr) (hk : Ends (Function.update ptr k v) k) :
    AllEnd (Function.update ptr k v) := by
  intro a ha
  by_cases hak : Leads ptr a k
  · obtain ⟨b, hkb, hend⟩ := hk
    exact ⟨b, (leads_update hak).trans hkb, hend⟩
  · have hne : a ≠ k := fun heq => hak (heq ▸ .refl)
    rw [Function.update_of_ne hne] at ha
    exact ends_update_of_not hak (h a ha)

/-- **Something new points to nothing.** -/
theorem allEnd_insert (h : AllEnd ptr) (k : κ) :
    AllEnd (Function.update ptr k (some none)) :=
  allEnd_update h ⟨k, .refl, Function.update_self ..⟩

/-- **Something may be made to point to another exactly if that one does not lead to it.** -/
theorem allEnd_link_iff (h : AllEnd ptr) {p : κ} (hp : ptr p ≠ none) :
    AllEnd (Function.update ptr k (some (some p))) ↔ ¬ Leads ptr p k := by
  have hlink : Points (Function.update ptr k (some (some p))) k p := Function.update_self ..
  constructor
  · intro hall hleads
    have hthere : Function.update ptr k (some (some p)) k ≠ none := by
      rw [Function.update_self]
      exact Option.some_ne_none _
    exact not_ends_of_circle hlink (leads_update hleads) (hall k hthere)
  · intro hleads
    obtain ⟨b, hpb, hend⟩ := ends_update_of_not (v := some (some p)) hleads (h p hp)
    exact allEnd_update h ⟨b, .head hlink hpb, hend⟩

/-- **Something may go exactly if nothing points to it.** -/
theorem allEnd_remove_iff (h : AllEnd ptr) :
    AllEnd (Function.update ptr k none) ↔ ∀ a, ¬ Points ptr a k := by
  have hgone : Function.update ptr k none k = none := Function.update_self ..
  constructor
  · intro hall a hak
    by_cases heq : a = k
    · have hthere : ptr k ≠ none := fun hnone => by simp [Points, heq, hnone] at hak
      exact not_ends_of_circle hak (heq ▸ .refl) (heq ▸ h k hthere)
    · have hpoints := points_update (v := none) heq hak
      have hthere : Function.update ptr k none a ≠ none := fun hnone => by
        simp [Points, hnone] at hpoints
      obtain ⟨b, hab, hend⟩ := hall a hthere
      rcases (leads_next_iff hpoints).mp hab with rfl | hkb
      · rw [Points, hend] at hpoints
        cases hpoints
      · rcases hkb.cases_head with rfl | ⟨c, hkc, -⟩
        · rw [hgone] at hend
          cases hend
        · rw [Points, hgone] at hkc
          cases hkc
  · intro hnone a ha
    have hne : a ≠ k := fun heq => ha (heq ▸ hgone)
    have hak : ¬ Leads ptr a k := by
      intro hleads
      rcases hleads.cases_tail with heq | ⟨c, -, hck⟩
      · exact hne heq.symm
      · exact hnone c hck
    rw [Function.update_of_ne hne] at ha
    exact ends_update_of_not hak (h a ha)

end Update

end Llamenos.Lib.Pointers

import Mathlib.Data.List.Basic
import Mathlib.Order.Lattice

/-!
# Replay guards

A guard lets a credential pass once: it stores a mark of every credential that passed, refuses a
marked one, and forgets a mark after its expiry.

A step presents a credential under a mark with an expiry, or cleans up at a time. That no credential
passes twice takes two things: a credential always has the same mark and expiry, and it is not
presented any more once a cleanup has gone past its expiry. Then a mark that was forgotten is one
whose credential is not presented again.

Results:
* `not_mem_passed_of_marked`: a marked credential does not pass again.
* `passed_nodup`: **no credential passes twice**.
-/

namespace Llamenos.Lib.ReplayGuard

variable {K M T : Type} [DecidableEq M] [LinearOrder T]

/-- A credential is presented, or expired marks are forgotten. -/
inductive Step (K M T : Type) where
  | present (credential : K) (mark : M) (expires : T)
  | clean (now : T)

/-- The credentials that pass, in order, from a store of marks with their expiry. -/
def passed : List (M × T) → List (Step K M T) → List K
  | _, [] => []
  | rows, .present credential mark expires :: steps =>
    if mark ∈ rows.map Prod.fst then passed rows steps
    else credential :: passed ((mark, expires) :: rows) steps
  | rows, .clean now :: steps => passed (rows.filter fun row => !decide (row.2 < now)) steps

/-- A credential keeps its mark and expiry, and is not presented after a cleanup past that. -/
def Compatible : Step K M T → Step K M T → Prop
  | .present credential mark expires, .present credential' mark' expires' =>
    credential = credential' → mark = mark' ∧ expires = expires'
  | .clean now, .present _ _ expires => now ≤ expires
  | _, .clean _ => True
variable {steps : List (Step K M T)}

theorem presented_of_mem_passed {rows : List (M × T)} {credential : K}
    (h : credential ∈ passed rows steps) :
    ∃ mark expires, .present credential mark expires ∈ steps := by
  induction steps generalizing rows with
  | nil => cases h
  | cons s steps ih =>
    cases s with
    | present credential' mark expires =>
      unfold passed at h
      split at h
      · obtain ⟨m, e, hmem⟩ := ih h
        exact ⟨m, e, List.mem_cons_of_mem _ hmem⟩
      · rcases List.mem_cons.mp h with rfl | h
        · exact ⟨mark, expires, List.mem_cons_self⟩
        · obtain ⟨m, e, hmem⟩ := ih h
          exact ⟨m, e, List.mem_cons_of_mem _ hmem⟩
    | clean now =>
      obtain ⟨m, e, hmem⟩ := ih h
      exact ⟨m, e, List.mem_cons_of_mem _ hmem⟩

/-- A marked credential does not pass again: its mark stays as long as it is presented. -/
theorem not_mem_passed_of_marked {rows : List (M × T)}
    {credential : K} {mark : M} {expires : T} (hrow : (mark, expires) ∈ rows)
    (hsteps : steps.Pairwise Compatible)
    (hsame : ∀ mark' expires', .present credential mark' expires' ∈ steps →
      mark = mark' ∧ expires = expires') : credential ∉ passed rows steps := by
  induction steps generalizing rows with
  | nil => exact List.not_mem_nil
  | cons s steps ih =>
    obtain ⟨hhead, htail⟩ := List.pairwise_cons.mp hsteps
    have hsame' := fun m e hmem => hsame m e (List.mem_cons_of_mem _ hmem)
    cases s with
    | present credential' mark' expires' =>
      unfold passed
      split
      · exact ih hrow htail hsame'
      · rename_i hunmarked
        intro h
        rcases List.mem_cons.mp h with rfl | h
        · obtain ⟨rfl, -⟩ := hsame mark' expires' List.mem_cons_self
          exact hunmarked (List.mem_map_of_mem hrow)
        · exact ih (List.mem_cons_of_mem _ hrow) htail hsame' h
    | clean now =>
      intro h
      rw [passed] at h
      obtain ⟨mark', expires', hmem⟩ := presented_of_mem_passed h
      obtain ⟨-, rfl⟩ := hsame' mark' expires' hmem
      have hkept : ¬ expires < now := not_lt.mpr (hhead _ hmem)
      exact ih (List.mem_filter.mpr ⟨hrow, by simpa using hkept⟩) htail hsame' h

/-- **No credential passes twice.** -/
theorem passed_nodup (rows : List (M × T))
    (hsteps : steps.Pairwise Compatible) : (passed rows steps).Nodup := by
  induction steps generalizing rows with
  | nil => exact List.nodup_nil
  | cons s steps ih =>
    obtain ⟨hhead, htail⟩ := List.pairwise_cons.mp hsteps
    cases s with
    | present credential mark expires =>
      unfold passed
      split
      · exact ih rows htail
      · refine List.nodup_cons.mpr ⟨?_, ih _ htail⟩
        exact not_mem_passed_of_marked List.mem_cons_self htail
          fun mark' expires' hmem => hhead _ hmem rfl
    | clean now => exact ih _ htail

end Llamenos.Lib.ReplayGuard

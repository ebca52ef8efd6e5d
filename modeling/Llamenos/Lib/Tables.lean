import Mathlib.Data.List.Nodup
import Mathlib.Logic.Function.Basic

/-!
# Tables with a key

Rows in a list, each with a key of its own, and the row of a key. What a statement does to the table
is said by what it does to the row of each key.

Results:
* `lookup_eq_some_iff`, `lookup_eq_none_iff`: the row of a key.
* `lookup_map`, `lookup_set`, `lookup_concat`: the row of a key after the rows have been set, or
  those of one key, or after a row has come.
* `nodup_map`, `nodup_concat`: what leaves each row its own key.
* `nodup_eraseDups`: the distinct values of a column.
-/

namespace Llamenos.Lib.Tables

variable {ρ κ : Type} [DecidableEq κ] {key : ρ → κ} {rows : List ρ} {row new : ρ} {k : κ}
  {set : ρ → ρ}

/-- The row of the key. -/
def lookup (key : ρ → κ) (rows : List ρ) (k : κ) : Option ρ := rows.find? fun row => key row = k

theorem key_of_lookup (h : lookup key rows k = some row) : key row = k := by
  simpa using List.find?_some h

theorem mem_of_lookup (h : lookup key rows k = some row) : row ∈ rows := List.mem_of_find?_eq_some h

theorem lookup_eq_none_iff : lookup key rows k = none ↔ ∀ row ∈ rows, key row ≠ k := by
  simp [lookup]

theorem lookup_eq_some_iff (h : (rows.map key).Nodup) :
    lookup key rows k = some row ↔ row ∈ rows ∧ key row = k := by
  constructor
  · exact fun hrow => ⟨mem_of_lookup hrow, key_of_lookup hrow⟩
  · rintro ⟨hrow, rfl⟩
    cases hfind : lookup key rows (key row) with
    | none => exact absurd rfl (lookup_eq_none_iff.mp hfind row hrow)
    | some other =>
      rw [List.inj_on_of_nodup_map h (mem_of_lookup hfind) hrow (key_of_lookup hfind)]

/-- **The rows are set**, under their keys. -/
theorem lookup_map (hset : ∀ row, key (set row) = key row) :
    lookup key (rows.map set) k = (lookup key rows k).map set := by
  have hsame : (fun row => decide (key row = k)) ∘ set = fun row => decide (key row = k) :=
    funext fun row => by simp [hset]
  unfold lookup
  rw [List.find?_map, hsame]

/-- **The row of one key is set.** -/
theorem lookup_set (hset : ∀ row, key (set row) = key row) :
    lookup key (rows.map fun row => if key row = k then set row else row) =
      Function.update (lookup key rows) k ((lookup key rows k).map set) := by
  funext j
  rw [lookup_map fun row => by split_ifs <;> simp [hset]]
  by_cases hj : j = k
  · rw [hj, Function.update_self]
    refine Option.map_congr fun row hrow => ?_
    exact if_pos (key_of_lookup hrow)
  · rw [Function.update_of_ne hj]
    cases hrow : lookup key rows j with
    | none => rfl
    | some row => rw [Option.map_some, key_of_lookup hrow, if_neg hj]

/-- **A row comes**, of a new key. -/
theorem lookup_concat (hnew : lookup key rows (key new) = none) :
    lookup key (rows ++ [new]) = Function.update (lookup key rows) (key new) (some new) := by
  funext j
  have hor : lookup key (rows ++ [new]) j = (lookup key rows j).or (lookup key [new] j) :=
    List.find?_append
  rw [hor]
  by_cases hj : j = key new
  · rw [hj, hnew, Function.update_self]
    simp [lookup]
  · rw [Function.update_of_ne hj]
    simp [lookup, Ne.symm hj]

omit [DecidableEq κ] in
theorem nodup_map (h : (rows.map key).Nodup) (hset : ∀ row, key (set row) = key row) :
    ((rows.map set).map key).Nodup := by
  rw [List.map_map, show key ∘ set = key from funext hset]
  exact h

theorem nodup_concat (h : (rows.map key).Nodup) (hnew : lookup key rows (key new) = none) :
    ((rows ++ [new]).map key).Nodup := by
  rw [List.map_append]
  refine h.append (List.nodup_singleton _) fun k hold hk => ?_
  obtain ⟨row, hrow, rfl⟩ := List.mem_map.mp hold
  exact lookup_eq_none_iff.mp hnew row hrow (List.mem_singleton.mp hk)

/-- **The distinct values of a column.** -/
theorem nodup_eraseDups : ∀ l : List κ, l.eraseDups.Nodup
  | [] => List.nodup_nil
  | a :: l => by
    rw [List.eraseDups_cons, List.nodup_cons, List.mem_eraseDups, List.mem_filter]
    exact ⟨by simp, nodup_eraseDups _⟩
  termination_by l => l.length
  decreasing_by exact Nat.lt_succ_of_le (List.length_filter_le ..)

end Llamenos.Lib.Tables

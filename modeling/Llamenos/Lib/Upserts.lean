import Mathlib.Data.List.Nodup
import Mathlib.Logic.Basic

/-!
# Upserts

A table whose rows have a key. An upsert merges the new row into the one of its key, or adds it if
there is none. One statement can upsert several rows, of different keys.

Results:
* `filter_upsert`: an upsert is felt among the rows of its key alone.
* `mem_upsert`, `exists_mem_upsert`, `nodup_upsert`: the rows after an upsert.
* `upsert_eq_self_iff`: what an upsert that changes nothing finds.
* `filter_upsertAll_eq_iff`: **a statement leaves some keys' rows as they are exactly if each of its
  rows of such a key changes nothing on its own**.
-/

namespace Llamenos.Lib.Upserts

variable {ρ κ : Type} [DecidableEq κ] {key : ρ → κ} {merge : ρ → ρ → ρ}

/-- The row of the new one's key has it merged in, or the new one is added. -/
def upsert (key : ρ → κ) (merge : ρ → ρ → ρ) (rows : List ρ) (new : ρ) : List ρ :=
  if ∃ row ∈ rows, key row = key new then
    rows.map fun row => if key row = key new then merge row new else row
  else rows ++ [new]

/-- One statement with several rows. -/
def upsertAll (key : ρ → κ) (merge : ρ → ρ → ρ) (rows news : List ρ) : List ρ :=
  news.foldl (upsert key merge) rows

/-- The rows are chosen by their key. -/
def ByKey (key : ρ → κ) (p : ρ → Prop) : Prop := ∀ a b, key a = key b → (p a ↔ p b)

section Filter

variable {p : ρ → Prop} [DecidablePred p] (hmerge : ∀ old new, key (merge old new) = key old)
  (hp : ByKey key p)

include hmerge hp

/-- An upsert of another key is not felt. -/
theorem filter_upsert_of_neg {rows : List ρ} {new : ρ} (hnew : ¬ p new) :
    (upsert key merge rows new).filter p = rows.filter p := by
  unfold upsert
  split_ifs
  · rw [List.filter_map]
    have hchosen : ((fun row => decide (p row)) ∘
        fun row => if key row = key new then merge row new else row) =
          fun row => decide (p row) := by
      funext row
      by_cases hkey : key row = key new
      · simp [hkey, hp _ _ (hmerge row new)]
      · simp [hkey]
    rw [hchosen]
    refine (List.map_congr_left fun row hrow => ?_).trans (List.map_id _)
    have hrow : p row := of_decide_eq_true (List.mem_filter.mp hrow).2
    exact if_neg fun hkey => hnew ((hp _ _ hkey).mp hrow)
  · simp [hnew]

/-- An upsert of such a key is one among the rows of those. -/
theorem filter_upsert_of_pos {rows : List ρ} {new : ρ} (hnew : p new) :
    (upsert key merge rows new).filter p = upsert key merge (rows.filter p) new := by
  have hthere : (∃ row ∈ rows.filter p, key row = key new) ↔ ∃ row ∈ rows, key row = key new := by
    constructor
    · rintro ⟨row, hrow, hkey⟩
      exact ⟨row, (List.mem_filter.mp hrow).1, hkey⟩
    · rintro ⟨row, hrow, hkey⟩
      have hchosen := (hp _ _ hkey).mpr hnew
      exact ⟨row, List.mem_filter.mpr ⟨hrow, decide_eq_true hchosen⟩, hkey⟩
  unfold upsert
  simp only [hthere]
  split_ifs
  · rw [List.filter_map]
    congr 2
    funext row
    by_cases hkey : key row = key new
    · simp [hkey, hp _ _ (hmerge row new)]
    · simp [hkey]
  · simp [hnew]

/-- **An upsert is felt among the rows of its key alone.** -/
theorem filter_upsert (rows : List ρ) (new : ρ) :
    (upsert key merge rows new).filter p =
      if p new then upsert key merge (rows.filter p) new else rows.filter p := by
  split_ifs with hnew
  · exact filter_upsert_of_pos hmerge hp hnew
  · exact filter_upsert_of_neg hmerge hp hnew

/-- What a statement does to the rows of such keys, its own rows of such keys do. -/
theorem filter_upsertAll (rows news : List ρ) :
    (upsertAll key merge rows news).filter p =
      upsertAll key merge (rows.filter p) (news.filter p) := by
  induction news generalizing rows with
  | nil => rfl
  | cons new news ih =>
    rw [upsertAll, List.foldl_cons, ← upsertAll, ih, filter_upsert hmerge hp]
    by_cases hnew : p new <;> simp [hnew, upsertAll]

end Filter

variable {rows : List ρ}

/-- A row after an upsert was there, or is a merged one, or the new one. -/
theorem mem_upsert {new row : ρ} (h : row ∈ upsert key merge rows new) :
    (row ∈ rows ∧ key row ≠ key new) ∨ (∃ old ∈ rows, key old = key new ∧ row = merge old new) ∨
      row = new ∧ ∀ old ∈ rows, key old ≠ key new := by
  unfold upsert at h
  split_ifs at h with hthere
  · obtain ⟨old, hold, rfl⟩ := List.mem_map.mp h
    by_cases hkey : key old = key new
    · rw [if_pos hkey]
      exact .inr (.inl ⟨old, hold, hkey, rfl⟩)
    · rw [if_neg hkey]
      exact .inl ⟨hold, hkey⟩
  · have hnone : ∀ old ∈ rows, key old ≠ key new := fun old hold hkey => hthere ⟨old, hold, hkey⟩
    rcases List.mem_append.mp h with hold | hnew
    · exact .inl ⟨hold, hnone row hold⟩
    · exact .inr (.inr ⟨List.mem_singleton.mp hnew, hnone⟩)

variable (key merge) in
/-- The new row's key has a row after the upsert: the old ones, merged, or the new one. -/
theorem exists_mem_upsert (rows : List ρ) (new : ρ) :
    ∃ row ∈ upsert key merge rows new,
      row = new ∧ (∀ old ∈ rows, key old ≠ key new) ∨
        ∃ old ∈ rows, key old = key new ∧ row = merge old new := by
  unfold upsert
  split_ifs with hthere
  · obtain ⟨old, hold, hkey⟩ := hthere
    exact ⟨merge old new, List.mem_map.mpr ⟨old, hold, if_pos hkey⟩, .inr ⟨old, hold, hkey, rfl⟩⟩
  · refine ⟨new, List.mem_append_right _ (List.mem_singleton_self new), .inl ⟨rfl, ?_⟩⟩
    exact fun old hold hkey => hthere ⟨old, hold, hkey⟩

/-- The rows of other keys are what they were. -/
theorem mem_upsert_of_ne (hmerge : ∀ old new, key (merge old new) = key old)
    {new row : ρ} (hne : key row ≠ key new) : row ∈ upsert key merge rows new ↔ row ∈ rows := by
  constructor
  · intro h
    rcases mem_upsert h with ⟨hrow, -⟩ | ⟨old, -, hkey, rfl⟩ | ⟨rfl, -⟩
    · exact hrow
    · exact absurd ((hmerge old new).trans hkey) hne
    · exact absurd rfl hne
  · intro h
    unfold upsert
    split_ifs
    · exact List.mem_map.mpr ⟨row, h, if_neg hne⟩
    · exact List.mem_append_left _ h

/-- The keys stay those of one row each. -/
theorem nodup_upsert (hmerge : ∀ old new, key (merge old new) = key old) {new : ρ}
    (h : (rows.map key).Nodup) : ((upsert key merge rows new).map key).Nodup := by
  unfold upsert
  split_ifs with hthere
  · have hkeys : (rows.map fun row => if key row = key new then merge row new else row).map key =
        rows.map key := by
      rw [List.map_map]
      refine List.map_congr_left fun row _ => ?_
      by_cases hkey : key row = key new <;> simp [hkey, hmerge]
    rwa [hkeys]
  · rw [List.map_append]
    refine h.append (List.nodup_singleton _) fun k hk hnew => hthere ?_
    obtain ⟨row, hrow, rfl⟩ := List.mem_map.mp hk
    exact ⟨row, hrow, List.mem_singleton.mp hnew⟩

/-- **An upsert changes nothing** exactly if there is a row of its key, and it is merged already. -/
theorem upsert_eq_self_iff {new : ρ} :
    upsert key merge rows new = rows ↔
      (∃ row ∈ rows, key row = key new) ∧
        ∀ row ∈ rows, key row = key new → merge row new = row := by
  unfold upsert
  split_ifs with hthere
  · rw [and_iff_right hthere]
    constructor
    · intro h row hrow hkey
      have hsame := List.map_inj_left.mp (h.trans (List.map_id rows).symm) row hrow
      rwa [if_pos hkey] at hsame
    · intro h
      refine (List.map_congr_left fun row hrow => ?_).trans (List.map_id rows)
      split_ifs with hkey
      · exact h row hrow hkey
      · rfl
  · refine iff_of_false (fun h => ?_) fun h => hthere h.1
    have hlength := congrArg List.length h
    simp at hlength

/-- Rows that change nothing one by one change nothing together. -/
theorem upsertAll_eq_self {rows news : List ρ}
    (h : ∀ new ∈ news, upsert key merge rows new = rows) :
    upsertAll key merge rows news = rows := by
  induction news with
  | nil => rfl
  | cons new news ih =>
    rw [upsertAll, List.foldl_cons, h new List.mem_cons_self]
    exact ih fun other hother => h other (List.mem_cons_of_mem new hother)

/-- A key tells the row, where no two have the same. -/
theorem filter_key_eq_singleton {news : List ρ} {new : ρ} (hkeys : (news.map key).Nodup)
    (hnew : new ∈ news) : (news.filter fun row => key row = key new) = [new] := by
  induction news with
  | nil => exact absurd hnew List.not_mem_nil
  | cons first news ih =>
    obtain ⟨hfirst, hkeys⟩ := List.nodup_cons.mp hkeys
    rcases List.mem_cons.mp hnew with rfl | hnew
    · have hnone : (news.filter fun row => key row = key new) = [] := by
        refine List.filter_eq_nil_iff.mpr fun row hrow hkey => hfirst ?_
        exact of_decide_eq_true hkey ▸ List.mem_map_of_mem hrow
      rw [List.filter_cons_of_pos (by simp), hnone]
    · have hne : key first ≠ key new := fun hkey => hfirst (hkey ▸ List.mem_map_of_mem hnew)
      rw [List.filter_cons_of_neg (by simpa using hne), ih hkeys hnew]

/-- **A statement leaves some keys' rows as they are exactly if each of its rows of such a key
changes nothing on its own.** -/
theorem filter_upsertAll_eq_iff (hmerge : ∀ old new, key (merge old new) = key old)
    {p : ρ → Prop} [DecidablePred p] (hp : ByKey key p) {rows news : List ρ}
    (hkeys : (news.map key).Nodup) :
    (upsertAll key merge rows news).filter p = rows.filter p ↔
      ∀ new ∈ news, p new → upsert key merge rows new = rows := by
  constructor
  · intro h new hnew hchosen
    -- of the statement's rows, this one alone has its key
    let q : ρ → Prop := fun row => key row = key new
    have hq : ByKey key q := fun a b hab => by simp only [q, hab]
    have hqp : ∀ rows : List ρ, (rows.filter p).filter q = rows.filter q := by
      intro rows
      rw [List.filter_filter]
      refine List.filter_congr fun row _ => ?_
      by_cases hkey : q row
      · simp [hkey, (hp _ _ hkey).mpr hchosen]
      · simp [hkey]
    have hsame : (upsertAll key merge rows news).filter q = rows.filter q := by
      rw [← hqp, h, hqp]
    rw [filter_upsertAll hmerge hq, filter_key_eq_singleton hkeys hnew] at hsame
    obtain ⟨⟨row, hrow, hkey⟩, hmerged⟩ := upsert_eq_self_iff.mp hsame
    have hthere : ∃ row ∈ rows, key row = key new := ⟨row, (List.mem_filter.mp hrow).1, hkey⟩
    refine upsert_eq_self_iff.mpr ⟨hthere, fun row hrow hkey => ?_⟩
    exact hmerged row (List.mem_filter.mpr ⟨hrow, decide_eq_true hkey⟩) hkey
  · intro h
    rw [filter_upsertAll hmerge hp]
    refine upsertAll_eq_self fun new hnew => ?_
    obtain ⟨hnew, hchosen⟩ := List.mem_filter.mp hnew
    have hchosen := of_decide_eq_true hchosen
    rw [← filter_upsert_of_pos hmerge hp hchosen, h new hnew hchosen]

end Llamenos.Lib.Upserts

import Mathlib.Data.List.Nodup

/-!
# Unique indexes

Rows have a name, and a key or none. A unique index admits no two rows of one key; rows without a
key are not in it, as many as there are.

Results:
* `unique_iff_length_le`: a key is that of one row at most.
* `unique_concat_iff`: a row may be added exactly if its key is free.
* `unique_map_iff`: the rows of a name may be set exactly if no other row has their new key.
* `Unique.map`: rows may lose their keys.
-/

namespace Llamenos.Lib.UniqueIndex

variable {ρ κ ι : Type} {name : ρ → ι} {key : ρ → Option κ} {rows : List ρ}

/-- Rows of one key are of one name. -/
def Unique (name : ρ → ι) (key : ρ → Option κ) (rows : List ρ) : Prop :=
  ∀ a ∈ rows, ∀ b ∈ rows, ∀ k, key a = some k → key b = some k → name a = name b

/-- A key is that of one row at most. -/
theorem unique_iff_length_le [DecidableEq κ] (hnames : (rows.map name).Nodup) :
    Unique name key rows ↔ ∀ k, (rows.filter fun row => key row = some k).length ≤ 1 := by
  constructor
  · intro h k
    have hnodup : ((rows.filter fun row => key row = some k).map name).Nodup :=
      hnames.sublist (List.filter_sublist.map _)
    have hof : ∀ row ∈ rows.filter fun row => key row = some k, row ∈ rows ∧ key row = some k :=
      fun row hrow => ⟨(List.mem_filter.mp hrow).1, of_decide_eq_true (List.mem_filter.mp hrow).2⟩
    rcases hrows : rows.filter fun row => key row = some k with _ | ⟨a, _ | ⟨b, rest⟩⟩
    · exact Nat.zero_le 1
    · exact Nat.le_refl 1
    · rw [hrows] at hnodup hof
      obtain ⟨ha, hka⟩ := hof a (by simp)
      obtain ⟨hb, hkb⟩ := hof b (by simp)
      have hnotin := (List.nodup_cons.mp hnodup).1
      exact absurd (h a ha b hb k hka hkb ▸ List.mem_cons_self) hnotin
  · intro h a ha b hb k hka hkb
    have hmem : ∀ row ∈ rows, key row = some k → row ∈ rows.filter fun row => key row = some k :=
      fun row hrow hkey => List.mem_filter.mpr ⟨hrow, decide_eq_true hkey⟩
    rcases hrows : rows.filter fun row => key row = some k with _ | ⟨c, _ | ⟨d, rest⟩⟩
    · exact absurd (hmem a ha hka) (by simp [hrows])
    · have hac := hmem a ha hka
      have hbc := hmem b hb hkb
      rw [hrows, List.mem_singleton] at hac hbc
      rw [hac, hbc]
    · have hlength := h k
      rw [hrows, List.length_cons, List.length_cons] at hlength
      omega

/-- **A row may be added exactly if its key is free.** -/
theorem unique_concat_iff {row : ρ} (hnew : name row ∉ rows.map name) :
    Unique name key (rows ++ [row]) ↔
      Unique name key rows ∧ ∀ k, key row = some k → ∀ other ∈ rows, key other ≠ some k := by
  have hne : ∀ other ∈ rows, name other ≠ name row :=
    fun other hother heq => hnew (heq ▸ List.mem_map_of_mem hother)
  constructor
  · intro h
    refine ⟨fun a ha b hb => h a (List.mem_append_left _ ha) b (List.mem_append_left _ hb), ?_⟩
    intro k hk other hother hkey
    exact hne other hother
      (h other (List.mem_append_left _ hother) row (by simp) k hkey hk)
  · rintro ⟨h, hfree⟩ a ha b hb k hka hkb
    rcases List.mem_append.mp ha with ha | ha <;> rcases List.mem_append.mp hb with hb | hb
    · exact h a ha b hb k hka hkb
    · rw [List.mem_singleton.mp hb] at hkb
      exact absurd hka (hfree k hkb a ha)
    · rw [List.mem_singleton.mp ha] at hka
      exact absurd hkb (hfree k hka b hb)
    · rw [List.mem_singleton.mp ha, List.mem_singleton.mp hb]

/-- **The rows of a name may be set exactly if no other row has their new key.** -/
theorem unique_map_iff (h : Unique name key rows) {set : ρ → ρ} {n : ι}
    (hname : ∀ row, name (set row) = name row)
    (hother : ∀ row ∈ rows, name row ≠ n → key (set row) = key row) :
    Unique name key (rows.map set) ↔
      ∀ row ∈ rows, name row = n → ∀ k, key (set row) = some k →
        ∀ other ∈ rows, name other ≠ n → key other ≠ some k := by
  constructor
  · intro hunique row hrow hn k hk other hmem hne hkey
    rw [← hother other hmem hne] at hkey
    have heq := hunique _ (List.mem_map_of_mem hmem) _ (List.mem_map_of_mem hrow) k hkey hk
    rw [hname, hname, hn] at heq
    exact hne heq
  · intro hfree a' ha' b' hb' k hka hkb
    obtain ⟨a, ha, rfl⟩ := List.mem_map.mp ha'
    obtain ⟨b, hb, rfl⟩ := List.mem_map.mp hb'
    rw [hname, hname]
    by_cases han : name a = n <;> by_cases hbn : name b = n
    · rw [han, hbn]
    · rw [hother b hb hbn] at hkb
      exact absurd hkb (hfree a ha han k hka b hb hbn)
    · rw [hother a ha han] at hka
      exact absurd hka (hfree b hb hbn k hkb a ha han)
    · rw [hother a ha han] at hka
      rw [hother b hb hbn] at hkb
      exact h a ha b hb k hka hkb

/-- **Rows may lose their keys.** -/
theorem Unique.map (h : Unique name key rows) {set : ρ → ρ}
    (hname : ∀ row, name (set row) = name row)
    (hkey : ∀ row ∈ rows, ∀ k, key (set row) = some k → key row = some k) :
    Unique name key (rows.map set) := by
  intro a' ha' b' hb' k hka hkb
  obtain ⟨a, ha, rfl⟩ := List.mem_map.mp ha'
  obtain ⟨b, hb, rfl⟩ := List.mem_map.mp hb'
  rw [hname, hname]
  exact h a ha b hb k (hkey a ha k hka) (hkey b hb k hkb)

end Llamenos.Lib.UniqueIndex

import Mathlib.Data.List.Forall2
import Mathlib.Data.List.Nodup
import Mathlib.Data.List.Perm.Basic

/-!
# Replacing rows through a codec

Values are stored as the rows of a table with a primary key, and read back from them. The rows of a
scope are replaced within a transaction: they are deleted, and the rows of new values are inserted
one after the other, each of which has to have a row, under a key that is not taken.

Results:
* `insertAll_eq_ok_iff`: what the insertions come to.
* `readBack_iff`: when the values that are read are those written.
* `writeBack_perm_iff`: when writing what has been read leaves the table as it was.
-/

namespace Llamenos.Lib.RowCodec

variable {ρ κ ω ν : Type} [DecidableEq κ]

/-- Why an insertion fails. -/
inductive Refusal (κ : Type) where
  | noRow
  | taken (key : κ)

/-- The rows of values, inserted one after the other. -/
def insertAll (key : ρ → κ) (encode : ω → Option ρ) : List ω → List ρ → Except (Refusal κ) (List ρ)
  | [], rows => .ok rows
  | w :: ws, rows =>
    match encode w with
    | none => .error .noRow
    | some row =>
      if key row ∈ rows.map key then .error (.taken (key row))
      else insertAll key encode ws (rows ++ [row])

variable {key : ρ → κ} {encode : ω → Option ρ} {ws : List ω} {rows rows' : List ρ}

/-- **What the insertions come to**: the rows of all values, under keys of their own. -/
theorem insertAll_eq_ok_iff : insertAll key encode ws rows = .ok rows' ↔
    ∃ new, List.Forall₂ (fun w row => encode w = some row) ws new ∧ rows' = rows ++ new ∧
      (new.map key).Nodup ∧ ∀ row ∈ new, key row ∉ rows.map key := by
  induction ws generalizing rows with
  | nil =>
    simp only [insertAll, Except.ok.injEq, List.forall₂_nil_left_iff]
    constructor
    · rintro rfl
      exact ⟨[], rfl, (List.append_nil _).symm, List.nodup_nil, by simp⟩
    · rintro ⟨new, rfl, rfl, -⟩
      exact (List.append_nil _).symm
  | cons w ws ih =>
    rw [insertAll]
    cases hrow : encode w with
    | none =>
      refine iff_of_false (by simp) ?_
      rintro ⟨new, hnew, -⟩
      obtain ⟨row, -, hrow', -⟩ := List.forall₂_cons_left_iff.mp hnew
      rw [hrow] at hrow'
      cases hrow'
    | some row =>
      simp only
      split_ifs with htaken
      · refine iff_of_false (by simp) ?_
        rintro ⟨new, hnew, -, -, hfresh⟩
        obtain ⟨row', new', hrow', -, rfl⟩ := List.forall₂_cons_left_iff.mp hnew
        rw [hrow, Option.some.injEq] at hrow'
        exact hfresh row' List.mem_cons_self (hrow' ▸ htaken)
      · rw [ih]
        constructor
        · rintro ⟨new, hnew, rfl, hnodup, hfresh⟩
          refine ⟨row :: new, .cons hrow hnew, (List.append_cons ..).symm, ?_, ?_⟩
          · refine List.nodup_cons.mpr ⟨fun hmem => ?_, hnodup⟩
            obtain ⟨row', hmem', hkey⟩ := List.mem_map.mp hmem
            exact hfresh row' hmem' (by simp [hkey])
          · refine List.forall_mem_cons.mpr ⟨htaken, fun row' hmem hkey => ?_⟩
            exact hfresh row' hmem (by rw [List.map_append]; exact List.mem_append_left _ hkey)
        · rintro ⟨new, hnew, rfl, hnodup, hfresh⟩
          obtain ⟨row', new', hrow', hnew', rfl⟩ := List.forall₂_cons_left_iff.mp hnew
          rw [hrow, Option.some.injEq] at hrow'
          subst hrow'
          have hnodup' := List.nodup_cons.mp hnodup
          refine ⟨new', hnew', List.append_cons .., hnodup'.2, fun row' hmem hkey => ?_⟩
          rw [List.map_append, List.map_singleton, List.mem_append, List.mem_singleton] at hkey
          rcases hkey with hkey | hkey
          · exact hfresh row' (List.mem_cons_of_mem _ hmem) hkey
          · exact hnodup'.1 (hkey ▸ List.mem_map_of_mem hmem)

/-! ## There and back -/

variable {p : ρ → Bool} {decode : ρ → ν} {val : ω → ν} {name : ω → κ}

omit [DecidableEq κ] in
theorem map_key_of_encodes (hname : ∀ w row, encode w = some row → key row = name w)
    {new : List ρ} (h : List.Forall₂ (fun w row => encode w = some row) ws new) :
    new.map key = ws.map name := by
  induction h with
  | nil => rfl
  | cons hrow _ ih => rw [List.map_cons, List.map_cons, ih, hname _ _ hrow]

/-- The rows of values are all of the scope, and decode to the values. -/
theorem decodes_iff {new : List ρ} (h : List.Forall₂ (fun w row => encode w = some row) ws new) :
    (new.filter p).map decode = ws.map val ↔
      ∀ w ∈ ws, ∃ row, encode w = some row ∧ p row ∧ decode row = val w := by
  constructor
  · intro hread
    have hall : new.filter p = new := by
      refine List.filter_eq_self.mpr (List.length_filter_eq_length_iff.mp ?_)
      have hlength := congrArg List.length hread
      rw [List.length_map, List.length_map, h.length_eq] at hlength
      exact hlength
    rw [hall] at hread
    have hscope := List.filter_eq_self.mp hall
    clear hall
    induction h with
    | nil => simp
    | cons hrow _ ih =>
      rw [List.map_cons, List.map_cons, List.cons.injEq] at hread
      refine List.forall_mem_cons.mpr ⟨⟨_, hrow, hscope _ List.mem_cons_self, hread.1⟩, ?_⟩
      exact ih hread.2 fun row hmem => hscope row (List.mem_cons_of_mem _ hmem)
  · intro hkept
    induction h with
    | nil => rfl
    | cons hrow _ ih =>
      obtain ⟨⟨row', hrow', hscope, hval⟩, hrest⟩ := List.forall_mem_cons.mp hkept
      rw [hrow, Option.some.injEq] at hrow'
      subst hrow'
      rw [List.filter_cons_of_pos hscope, List.map_cons, List.map_cons, hval, ih hrest]

/-- **When the values read are those written** in place of the rows of a scope. -/
theorem readBack_iff (hname : ∀ w row, encode w = some row → key row = name w) :
    (∃ rows', insertAll key encode ws (rows.filter fun row => !p row) = .ok rows' ∧
      (rows'.filter p).map decode = ws.map val) ↔
      (ws.map name).Nodup ∧ (∀ w ∈ ws, ∀ row ∈ rows, p row = false → key row ≠ name w) ∧
        ∀ w ∈ ws, ∃ row, encode w = some row ∧ p row ∧ decode row = val w := by
  have hothers : ∀ new : List ρ,
      ((rows.filter fun row => !p row) ++ new).filter p = new.filter p := by
    intro new
    rw [List.filter_append, List.filter_filter]
    simp
  constructor
  · rintro ⟨rows', hok, hread⟩
    obtain ⟨new, hnew, rfl, hnodup, hfresh⟩ := insertAll_eq_ok_iff.mp hok
    rw [hothers] at hread
    have hkeys := map_key_of_encodes hname hnew
    refine ⟨hkeys ▸ hnodup, fun w hw row hrow hp hkey => ?_, (decodes_iff hnew).mp hread⟩
    have hmem : key row ∈ new.map key := by
      rw [hkeys, hkey]
      exact List.mem_map_of_mem hw
    obtain ⟨row', hrow', hkey'⟩ := List.mem_map.mp hmem
    refine hfresh row' hrow' (hkey' ▸ List.mem_map_of_mem ?_)
    exact List.mem_filter.mpr ⟨hrow, by simp [hp]⟩
  · rintro ⟨hnodup, hfresh, hkept⟩
    obtain ⟨new, hnew⟩ : ∃ new, List.Forall₂ (fun w row => encode w = some row) ws new := by
      clear hnodup hfresh
      induction ws with
      | nil => exact ⟨[], .nil⟩
      | cons w ws ih =>
        obtain ⟨⟨row, hrow, -⟩, hrest⟩ := List.forall_mem_cons.mp hkept
        obtain ⟨new, hnew⟩ := ih hrest
        exact ⟨row :: new, .cons hrow hnew⟩
    have hkeys := map_key_of_encodes hname hnew
    refine ⟨_, insertAll_eq_ok_iff.mpr
      ⟨new, hnew, rfl, hkeys ▸ hnodup, fun row hrow hmem => ?_⟩, ?_⟩
    · have hkey : key row ∈ ws.map name := hkeys ▸ List.mem_map_of_mem hrow
      obtain ⟨w, hw, hwkey⟩ := List.mem_map.mp hkey
      obtain ⟨other, hother, hsame⟩ := List.mem_map.mp hmem
      obtain ⟨hother, hp⟩ := List.mem_filter.mp hother
      exact hfresh w hw other hother (by simpa using hp) (hsame.trans hwkey.symm)
    · rw [hothers]
      exact (decodes_iff hnew).mpr hkept

/-- What is stored when what has been read of a scope is written back; `again` is what becomes of a
row. -/
theorem writeBack_eq (hrows : (rows.map key).Nodup) {again : ρ → ρ}
    (hkey : ∀ row, key (again row) = key row)
    (hagain : ∀ w row, val w = decode row → encode w = some (again row))
    (hws : ws.map val = (rows.filter p).map decode) :
    insertAll key encode ws (rows.filter fun row => !p row) =
      .ok ((rows.filter fun row => !p row) ++ (rows.filter p).map again) := by
  refine insertAll_eq_ok_iff.mpr ⟨_, ?_, rfl, ?_, ?_⟩
  · generalize rows.filter p = scope at hws
    induction ws generalizing scope with
    | nil => rw [List.map_eq_nil_iff.mp hws.symm]; exact .nil
    | cons w ws ih =>
      obtain ⟨row, scope, rfl, hval, hrest⟩ := List.map_eq_cons_iff.mp hws.symm
      exact .cons (hagain w row hval.symm) (ih scope hrest.symm)
  · have hsame : key ∘ again = key := funext hkey
    rw [List.map_map, hsame]
    exact hrows.sublist (List.filter_sublist.map key)
  · intro row hrow hmem
    obtain ⟨row, hread, rfl⟩ := List.mem_map.mp hrow
    obtain ⟨other, hother, hsame⟩ := List.mem_map.mp hmem
    obtain ⟨hother, hp⟩ := List.mem_filter.mp hother
    obtain ⟨hrow, hp'⟩ := List.mem_filter.mp hread
    have heq := List.inj_on_of_nodup_map hrows hother hrow (hsame.trans (hkey row))
    simp [heq, hp'] at hp

omit [DecidableEq κ] in
/-- **When writing back what has been read leaves the table as it was**. -/
theorem writeBack_perm_iff (hrows : (rows.map key).Nodup) {again : ρ → ρ}
    (hkey : ∀ row, key (again row) = key row) :
    ((rows.filter fun row => !p row) ++ (rows.filter p).map again).Perm rows ↔
      ∀ row ∈ rows, p row → again row = row := by
  constructor
  · intro h row hrow hp
    refine List.inj_on_of_nodup_map hrows (h.subset ?_) hrow (hkey row)
    exact List.mem_append_right _ (List.mem_map_of_mem (List.mem_filter.mpr ⟨hrow, hp⟩))
  · intro h
    have hsame : (rows.filter p).map again = rows.filter p := by
      refine (List.map_congr_left fun row hmem => ?_).trans (List.map_id _)
      exact h row (List.mem_filter.mp hmem).1 (List.mem_filter.mp hmem).2
    rw [hsame]
    exact List.perm_append_comm.trans (List.filter_append_perm p rows)

end Llamenos.Lib.RowCodec

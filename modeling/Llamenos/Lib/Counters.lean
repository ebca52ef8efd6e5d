import Mathlib.Data.List.Nodup
import Mathlib.Data.List.Perm.Basic

/-!
# Counters kept beside the rows they count

Rows have a name and a counter; other rows name them by a key. The counters are right if each is
the number of keys that name its row. A store that keeps such counters changes them row by row, at
the name, beside its changes of the keys.

Results:
* `Counted.update`: a row's counter and the keys that name it change alike.
* `Counted.same`, `Counted.congr`: what neither a counter nor a key of a row notices.
* `Counted.bump`, `Counted.drop`: one key more, or one less.
* `Counted.dropAll`: several keys less, one after the other.
* `count_remove`, `count_partition`, `countP_update`: the keys after rows have gone, or one is set.
* `moved_perm`, `moved_nodup_iff`: the rows of one name after they have been given another.
-/

namespace Llamenos.Lib.Counters

variable {ρ κ α β : Type} [DecidableEq κ] [DecidableEq β] {name : ρ → κ} {count : ρ → Nat}
  {rows : List ρ} {keys keys' : List κ}

/-- Every row's counter is the number of keys that name the row. -/
def Counted (name : ρ → κ) (count : ρ → Nat) (rows : List ρ) (keys : List κ) : Prop :=
  ∀ row ∈ rows, count row = keys.count (name row)

/-- The rows of that name are set. -/
def update (name : ρ → κ) (rows : List ρ) (k : κ) (set : ρ → ρ) : List ρ :=
  rows.map fun row => if name row = k then set row else row

theorem mem_update {k : κ} {set : ρ → ρ} {row' : ρ} (h : row' ∈ update name rows k set) :
    ∃ row ∈ rows, row' = if name row = k then set row else row := by
  obtain ⟨row, hrow, rfl⟩ := List.mem_map.mp h
  exact ⟨row, hrow, rfl⟩

/-- What a setting keeps, all the rows keep. -/
theorem map_update {γ : Type} (f : ρ → γ) (rows : List ρ) (k : κ) {set : ρ → ρ}
    (hset : ∀ row, f (set row) = f row) : (update name rows k set).map f = rows.map f := by
  unfold update
  rw [List.map_map]
  congr 1
  funext row
  by_cases hk : name row = k <;> simp [hk, hset]

theorem map_foldl_update {γ : Type} (f : ρ → γ) {set : ρ → ρ} (hset : ∀ row, f (set row) = f row)
    (ks : List κ) (rows : List ρ) :
    (ks.foldl (fun rows k => update name rows k set) rows).map f = rows.map f := by
  induction ks generalizing rows with
  | nil => rfl
  | cons k ks ih => exact (ih _).trans (map_update f rows k hset)

/-- Rows that are not of the name, or that are set to what they are, stay. -/
theorem update_eq_self {k : κ} {set : ρ → ρ} (h : ∀ row ∈ rows, name row = k → set row = row) :
    update name rows k set = rows := by
  refine (List.map_congr_left fun row hrow => ?_).trans (List.map_id _)
  split_ifs with hk
  · exact h row hrow hk
  · rfl

/-- The keys of a name, after its rows have been given another name. -/
theorem count_rename {k new : κ} {set : ρ → ρ} (hset : ∀ row, name (set row) = new) :
    ((update name rows k set).map name).count k =
      if new = k then (rows.map name).count k else 0 := by
  split_ifs with hk
  · refine congrArg (List.count k) ?_
    unfold update
    rw [List.map_map]
    refine List.map_congr_left fun row _ => ?_
    by_cases hrow : name row = k <;> simp [hrow, hset, hk]
  · refine List.count_eq_zero.mpr fun hmem => ?_
    obtain ⟨row', hrow', hname⟩ := List.mem_map.mp hmem
    obtain ⟨row, -, rfl⟩ := mem_update hrow'
    by_cases hrow : name row = k
    · rw [if_pos hrow, hset] at hname
      exact hk hname
    · rw [if_neg hrow] at hname
      exact hrow hname

/-- The counters and the keys change alike. -/
theorem Counted.update (h : Counted name count rows keys) {k : κ} {set : ρ → ρ}
    (hname : ∀ row, name (set row) = name row)
    (hset : ∀ row ∈ rows, name row = k → count row = keys.count k →
      count (set row) = keys'.count k)
    (hrest : ∀ row ∈ rows, name row ≠ k → keys'.count (name row) = keys.count (name row)) :
    Counted name count (update name rows k set) keys' := by
  intro row' hrow'
  obtain ⟨row, hrow, rfl⟩ := mem_update hrow'
  by_cases hk : name row = k
  · rw [if_pos hk, hname row, hk]
    exact hset row hrow hk (hk ▸ h row hrow)
  · rw [if_neg hk, hrest row hrow hk]
    exact h row hrow

/-- **Only the keys change**, and for no row. -/
theorem Counted.congr (h : Counted name count rows keys)
    (hkeys : ∀ row ∈ rows, keys'.count (name row) = keys.count (name row)) :
    Counted name count rows keys' := fun row hrow => by rw [hkeys row hrow, h row hrow]

/-- **The rows change**, but neither a name nor a counter. -/
theorem Counted.same {rows' : List ρ} (h : Counted name count rows keys)
    (hsame : rows'.map (fun row => (name row, count row)) =
      rows.map fun row => (name row, count row)) :
    Counted name count rows' keys := by
  intro row' hrow'
  have hmem : (name row', count row') ∈ rows.map fun row => (name row, count row) :=
    hsame ▸ List.mem_map_of_mem hrow'
  obtain ⟨row, hrow, heq⟩ := List.mem_map.mp hmem
  obtain ⟨hname, hcount⟩ := Prod.mk.inj heq
  rw [← hname, ← hcount]
  exact h row hrow

/-- **Something else is set.** -/
theorem Counted.frame (h : Counted name count rows keys) {k : κ} {set : ρ → ρ}
    (hset : ∀ row, (name (set row), count (set row)) = (name row, count row)) :
    Counted name count (Counters.update name rows k set) keys :=
  h.same (map_update _ rows k hset)

/-- **One key more.** -/
theorem Counted.bump (h : Counted name count rows keys) {k : κ} {set : ρ → ρ}
    (hname : ∀ row, name (set row) = name row) (hcount : ∀ row, count (set row) = count row + 1)
    (hkeys : ∀ j, keys'.count j = keys.count j + if k = j then 1 else 0) :
    Counted name count (Counters.update name rows k set) keys' := by
  refine h.update hname (fun row _ _ hright => ?_) fun row _ hne => ?_
  · rw [hcount, hright, hkeys, if_pos rfl]
  · rw [hkeys, if_neg (Ne.symm hne), Nat.add_zero]

/-- **One key less.** -/
theorem Counted.drop (h : Counted name count rows keys) {k : κ} {set : ρ → ρ}
    (hname : ∀ row, name (set row) = name row) (hcount : ∀ row, count (set row) = count row - 1)
    (hkeys : ∀ j, keys.count j = keys'.count j + if k = j then 1 else 0) :
    Counted name count (Counters.update name rows k set) keys' := by
  refine h.update hname (fun row _ _ hright => ?_) fun row _ hne => ?_
  · rw [hcount, hright, hkeys, if_pos rfl, Nat.add_sub_cancel]
  · rw [hkeys, if_neg (Ne.symm hne), Nat.add_zero]

/-- **Keys go one after the other.** -/
theorem Counted.dropAll {set : ρ → ρ} (hname : ∀ row, name (set row) = name row)
    (hcount : ∀ row, count (set row) = count row - 1) (gone : List κ)
    (h : Counted name count rows keys) (hkeys : ∀ j, keys.count j = keys'.count j + gone.count j) :
    Counted name count (gone.foldl (fun rows k => Counters.update name rows k set) rows) keys' := by
  induction gone generalizing rows keys with
  | nil => exact h.congr fun row _ => (hkeys _).symm
  | cons k gone ih =>
    refine ih (h.drop hname hcount fun j => ?_) fun j => List.count_append
    rw [hkeys, List.count_append, List.count_cons, Nat.add_assoc]
    simp only [beq_iff_eq]

/-- Rows may go. -/
theorem Counted.mono {rows' : List ρ} (h : Counted name count rows keys) (hsub : rows' ⊆ rows) :
    Counted name count rows' keys := fun row hrow => h row (hsub hrow)

/-- A row may come, with its counter. -/
theorem Counted.insert (h : Counted name count rows keys) {row : ρ}
    (hrow : count row = keys.count (name row)) : Counted name count (rows ++ [row]) keys := by
  intro row' hrow'
  rcases List.mem_append.mp hrow' with hold | hnew
  · exact h row' hold
  · rw [List.mem_singleton.mp hnew]
    exact hrow

/-! ## Keys -/

theorem count_concat (l : List α) (a : α) (f : α → κ) (k : κ) :
    ((l ++ [a]).map f).count k = (l.map f).count k + if f a = k then 1 else 0 := by
  rw [List.map_append, List.count_append, List.map_singleton, List.count_singleton]
  simp only [beq_iff_eq]

/-- The keys of a name, where its rows stay. -/
theorem count_kept {l : List α} {p : α → Bool} {f : α → κ} {k : κ}
    (h : ∀ a ∈ l, f a = k → p a = true) : ((l.filter p).map f).count k = (l.map f).count k := by
  induction l with
  | nil => rfl
  | cons a l ih =>
    have hrest := ih fun b hb => h b (List.mem_cons_of_mem a hb)
    by_cases hp : p a = true
    · rw [List.filter_cons_of_pos hp, List.map_cons, List.map_cons, List.count_cons,
        List.count_cons, hrest]
    · have hne : f a ≠ k := fun hk => hp (h a List.mem_cons_self hk)
      rw [List.filter_cons_of_neg hp, List.map_cons, List.count_cons_of_ne hne, hrest]

theorem count_filterMap (l : List α) (f : α → Option κ) (k : κ) :
    (l.filterMap f).count k = l.countP fun a => f a = some k := by
  rw [List.count_filterMap]
  congr 1
  funext a
  exact beq_eq_decide _ _

/-- Where no two rows have one name, setting one changes what is counted by it alone. -/
theorem countP_update (hnodup : (rows.map name).Nodup) {row : ρ} (hrow : row ∈ rows)
    (set : ρ → ρ) (p : ρ → Bool) :
    (update name rows (name row) set).countP p + (if p row then 1 else 0) =
      rows.countP p + if p (set row) then 1 else 0 := by
  induction rows with
  | nil => cases hrow
  | cons first rest ih =>
    obtain ⟨hfirst, hrest⟩ := List.nodup_cons.mp hnodup
    rcases List.mem_cons.mp hrow with rfl | hmem
    · have hkept : update name rest (name row) set = rest := by
        refine update_eq_self fun other hother heq => absurd ?_ hfirst
        exact heq ▸ List.mem_map_of_mem hother
      have hcons : update name (row :: rest) (name row) set = set row :: rest := by
        conv_rhs => rw [← hkept]
        exact congrArg (· :: _) (if_pos rfl)
      rw [hcons, List.countP_cons, List.countP_cons]
      omega
    · have hne : name first ≠ name row := fun heq => hfirst (heq ▸ List.mem_map_of_mem hmem)
      have hcons : update name (first :: rest) (name row) set =
          first :: update name rest (name row) set := congrArg (· :: _) (if_neg hne)
      have hkeys := ih hrest hmem
      rw [hcons, List.countP_cons, List.countP_cons]
      omega

/-- The keys are those of the rows that are picked, and those of the others. -/
theorem count_partition (l : List α) (p : α → Bool) (f : α → κ) (k : κ) :
    (l.map f).count k =
      ((l.filter fun a => !p a).map f).count k + ((l.filter p).map f).count k := by
  rw [Nat.add_comm, ← List.count_append, ← List.map_append]
  exact ((List.filter_append_perm p l).map f).symm.count_eq k

/-- Where no two rows agree on `g`, one goes. -/
theorem countP_remove {l : List α} {g : α → β} (hnodup : (l.map g).Nodup) {a : α} (ha : a ∈ l)
    (p : α → Bool) :
    l.countP p = (l.filter fun b => g b ≠ g a).countP p + if p a then 1 else 0 := by
  have hsame : l.filter (fun b => g b = g a) = [a] := by
    have hone : (l.filter fun b => g b = g a).Nodup := hnodup.of_map.filter _
    refine List.perm_singleton.mp ((List.perm_ext_iff_of_nodup hone (List.nodup_singleton a)).mpr
      fun b => ?_)
    rw [List.mem_filter, List.mem_singleton, decide_eq_true_eq]
    constructor
    · rintro ⟨hb, hba⟩
      exact List.inj_on_of_nodup_map hnodup hb ha hba
    · rintro rfl
      exact ⟨ha, rfl⟩
  have hparts := (List.filter_append_perm (fun b => decide (g b = g a)) l).countP_eq p
  rw [List.countP_append, hsame, List.countP_singleton] at hparts
  simp only [decide_not] at hparts ⊢
  omega

theorem count_remove {l : List α} {g : α → β} (hnodup : (l.map g).Nodup) {a : α} (ha : a ∈ l)
    (f : α → κ) (k : κ) :
    (l.map f).count k =
      ((l.filter fun b => g b ≠ g a).map f).count k + if f a = k then 1 else 0 := by
  rw [List.count_eq_countP, List.count_eq_countP, List.countP_map, List.countP_map,
    countP_remove hnodup ha]
  simp

/-! ## Rows that are given another name -/

section Moved

variable {γ : Type} {k new : κ} {set : ρ → ρ}

/-- No row is left behind. -/
theorem moved_none (hne : new ≠ k) (hset : ∀ row, name (set row) = new) :
    (update name rows k set).filter (fun row => name row = k) = [] := by
  refine List.filter_eq_nil_iff.mpr fun row' hrow' => ?_
  obtain ⟨row, -, rfl⟩ := mem_update hrow'
  rw [decide_eq_true_eq]
  by_cases hk : name row = k
  · rw [if_pos hk, hset]
    exact hne
  · rw [if_neg hk]
    exact hk

/-- **The rows of both names** are those of the new one. -/
theorem moved_perm (hne : new ≠ k) (hset : ∀ row, name (set row) = new) {f : ρ → γ}
    (hf : ∀ row, f (set row) = f row) (rows : List ρ) :
    (((update name rows k set).filter fun row => name row = new).map f).Perm
      ((rows.filter fun row => name row = new).map f ++
        (rows.filter fun row => name row = k).map f) := by
  induction rows with
  | nil => exact .refl _
  | cons row rows ih =>
    have hcons : update name (row :: rows) k set =
        (if name row = k then set row else row) :: update name rows k set := rfl
    rw [hcons]
    by_cases hk : name row = k
    · have hold : name row ≠ new := fun heq => hne (heq.symm.trans hk)
      rw [if_pos hk, List.filter_cons_of_pos (by simpa using hset row),
        List.filter_cons_of_neg (by simpa using hold), List.filter_cons_of_pos (by simpa using hk),
        List.map_cons, List.map_cons, hf]
      exact (ih.cons _).trans List.perm_middle.symm
    · rw [if_neg hk, List.filter_cons_of_neg (p := fun row => name row = k) (by simpa using hk)]
      by_cases hnew : name row = new
      · rw [List.filter_cons_of_pos (by simpa using hnew),
          List.filter_cons_of_pos (by simpa using hnew), List.map_cons, List.map_cons]
        exact ih.cons _
      · rw [List.filter_cons_of_neg (by simpa using hnew),
          List.filter_cons_of_neg (by simpa using hnew)]
        exact ih

/-- **Rows that are told apart by their name and `f` still are**, if none is under both names. -/
theorem moved_nodup_iff (hne : new ≠ k) (hset : ∀ row, name (set row) = new) {f : ρ → γ}
    (hf : ∀ row, f (set row) = f row)
    (hext : ∀ row row', name row = name row' → f row = f row' → row = row') (h : rows.Nodup) :
    (update name rows k set).Nodup ↔
      ((rows.filter fun row => name row = new).map f).Disjoint
        ((rows.filter fun row => name row = k).map f) := by
  constructor
  · intro hnodup c hold hmoved
    obtain ⟨row, hrow, rfl⟩ := List.mem_map.mp hold
    obtain ⟨row', hrow', hc⟩ := List.mem_map.mp hmoved
    simp only [List.mem_filter, decide_eq_true_eq] at hrow hrow'
    have hrowk : name row ≠ k := fun heq => hne (hrow.2.symm.trans heq)
    have hsame : set row' = row := hext _ _ ((hset row').trans hrow.2.symm) ((hf row').trans hc)
    have heq := List.inj_on_of_nodup_map hnodup hrow'.1 hrow.1
      (by rw [if_pos hrow'.2, if_neg hrowk, hsame])
    exact hrowk (heq ▸ hrow'.2)
  · intro hdisjoint
    have hboth : ∀ row ∈ rows, ∀ row' ∈ rows, name row = k → name row' ≠ k →
        set row ≠ row' := by
      rintro row hrow row' hrow' hk - rfl
      refine hdisjoint (a := f row) (List.mem_map.mpr ⟨set row, ?_, hf row⟩)
        (List.mem_map.mpr ⟨row, ?_, rfl⟩)
      · exact List.mem_filter.mpr ⟨hrow', by simpa using hset row⟩
      · exact List.mem_filter.mpr ⟨hrow, by simpa using hk⟩
    refine h.map_on fun row hrow row' hrow' heq => ?_
    by_cases hk : name row = k <;> by_cases hk' : name row' = k
    · rw [if_pos hk, if_pos hk'] at heq
      refine hext _ _ (hk.trans hk'.symm) ?_
      rw [← hf row, ← hf row', heq]
    · rw [if_pos hk, if_neg hk'] at heq
      exact absurd heq (hboth row hrow row' hrow' hk hk')
    · rw [if_neg hk, if_pos hk'] at heq
      exact absurd heq.symm (hboth row' hrow' row hrow hk' hk)
    · rwa [if_neg hk, if_neg hk'] at heq

end Moved

end Llamenos.Lib.Counters

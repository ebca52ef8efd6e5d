import Mathlib.Data.List.Basic

/-!
# Deletions that cascade

Rows, some of which hang on others: `hangs r p` says that `r` goes with `p`, `blocks r p` that `p`
cannot go while `r` stays. A DELETE names some rows; with them goes what hangs on them, and what
hangs on that, and the statement fails if a row that stays blocks one that goes.

Results:
* `gone_iff`: what is found to go, round by round, is what falls with the named rows.
* `mem_delete`, `delete_eq_none_iff`: what a DELETE leaves, and when it fails.
* `closed_delete`, `closed_blocks_delete`: **a row is there only while those it hangs on, or blocks,
  are**, from one DELETE to the next.
-/

namespace Llamenos.Lib.Cascades

variable {ρ : Type}

/-- What goes when the rows that meet `target` go. -/
inductive Falls (hangs : ρ → ρ → Bool) (rows : List ρ) (target : ρ → Bool) : ρ → Prop
  | target {r : ρ} : target r = true → Falls hangs rows target r
  | cascade {r p : ρ} : p ∈ rows → hangs r p = true → Falls hangs rows target p →
      Falls hangs rows target r

section Delete

variable (hangs blocks : ρ → ρ → Bool)

/-- The row hangs on one that goes. -/
def dragged (rows : List ρ) (gone : ρ → Bool) (r : ρ) : Bool :=
  rows.any fun p => gone p && hangs r p

/-- Round by round, until no row is dragged along. -/
def cascade (rows : List ρ) : Nat → (ρ → Bool) → ρ → Bool
  | 0, gone => gone
  | n + 1, gone =>
    if rows.any fun r => !gone r && dragged hangs rows gone r then
      cascade rows n fun r => gone r || dragged hangs rows gone r
    else gone

def gone (rows : List ρ) (target : ρ → Bool) : ρ → Bool := cascade hangs rows rows.length target

/-- The rows that a DELETE leaves, or `none` if it fails. -/
def delete (rows : List ρ) (target : ρ → Bool) : Option (List ρ) :=
  let goes := gone hangs rows target
  if rows.any fun r => !goes r && rows.any fun p => goes p && blocks r p then none
  else some (rows.filter fun r => !goes r)

end Delete

variable {hangs blocks : ρ → ρ → Bool} {rows left : List ρ} {target : ρ → Bool} {r p : ρ}

/-! ## What goes -/

theorem dragged_iff {gone : ρ → Bool} :
    dragged hangs rows gone r = true ↔ ∃ p ∈ rows, gone p = true ∧ hangs r p = true := by
  simp [dragged]

theorem cascade_mono {gone : ρ → Bool} (n : Nat) (h : gone r = true) :
    cascade hangs rows n gone r = true := by
  induction n generalizing gone with
  | zero => exact h
  | succ n ih =>
    unfold cascade
    split_ifs
    · exact ih (by rw [h, Bool.true_or])
    · exact h

/-- Nothing goes but what falls. -/
theorem falls_of_cascade {goes : ρ → Bool} (hgoes : ∀ r, goes r = true → Falls hangs rows target r)
    (n : Nat) (h : cascade hangs rows n goes r = true) : Falls hangs rows target r := by
  induction n generalizing goes with
  | zero => exact hgoes r h
  | succ n ih =>
    unfold cascade at h
    split_ifs at h
    · refine ih (fun r hr => ?_) h
      rcases Bool.or_eq_true_iff.mp hr with hold | hnew
      · exact hgoes r hold
      · obtain ⟨p, hp, hgone, hhangs⟩ := dragged_iff.mp hnew
        exact .cascade hp hhangs (hgoes p hgone)
    · exact hgoes r h

/-- **As many rounds as rows stay are enough**: then nothing that stays hangs on what goes. -/
theorem cascade_closed {goes : ρ → Bool} {n : Nat} (hn : rows.countP (fun r => !goes r) ≤ n)
    (hr : r ∈ rows) (hp : p ∈ rows) (hhangs : hangs r p = true)
    (h : cascade hangs rows n goes p = true) : cascade hangs rows n goes r = true := by
  induction n generalizing goes with
  | zero =>
    have hall := List.countP_eq_zero.mp (Nat.le_zero.mp hn) r hr
    simpa [cascade] using hall
  | succ n ih =>
    unfold cascade at h ⊢
    split_ifs at h ⊢ with hmore
    · refine ih ?_ h
      obtain ⟨x, hx, hstays, hdragged⟩ : ∃ x ∈ rows, goes x = false ∧
          dragged hangs rows goes x = true := by simpa using hmore
      have hless : rows.countP (fun r => !(goes r || dragged hangs rows goes r)) <
          rows.countP fun r => !goes r := by
        have hsplit : rows.filter (fun r => !(goes r || dragged hangs rows goes r)) =
            (rows.filter fun r => !goes r).filter fun r => !dragged hangs rows goes r := by
          rw [List.filter_filter]
          simp [Bool.not_or, Bool.and_comm]
        rw [List.countP_eq_length_filter, List.countP_eq_length_filter, hsplit]
        exact List.length_filter_lt_length_iff_exists.mpr
          ⟨x, List.mem_filter.mpr ⟨hx, by simp [hstays]⟩, by simp [hdragged]⟩
      omega
    · have hnone : ∀ x ∈ rows, goes x = false → dragged hangs rows goes x = false := by
        simpa using hmore
      by_contra hstays
      have hdragged := hnone r hr (Bool.not_eq_true _ ▸ hstays)
      rw [dragged_iff.mpr ⟨p, hp, h, hhangs⟩] at hdragged
      cases hdragged

/-- **What is found to go** is what falls with the named rows. -/
theorem gone_iff (hr : r ∈ rows) : gone hangs rows target r = true ↔ Falls hangs rows target r := by
  constructor
  · exact falls_of_cascade (fun _ h => .target h) rows.length
  · intro hfalls
    induction hfalls with
    | target h => exact cascade_mono rows.length h
    | cascade hp hhangs _ ih => exact cascade_closed List.countP_le_length hr hp hhangs (ih hp)

/-! ## DELETE -/

/-- **What a DELETE leaves.** -/
theorem mem_delete (h : delete hangs blocks rows target = some left) :
    r ∈ left ↔ r ∈ rows ∧ ¬ Falls hangs rows target r := by
  unfold delete at h
  dsimp only at h
  split_ifs at h
  rw [← Option.some.inj h, List.mem_filter]
  refine and_congr_right fun hr => ?_
  rw [← gone_iff hr, Bool.not_eq_true', Bool.not_eq_true]

theorem subset_of_delete (h : delete hangs blocks rows target = some left) : left ⊆ rows :=
  fun _ hr => ((mem_delete h).mp hr).1

/-- A DELETE fails where a row that stays blocks one that goes. -/
theorem delete_eq_none_iff : delete hangs blocks rows target = none ↔
    ∃ r ∈ rows, ¬ Falls hangs rows target r ∧
      ∃ p ∈ rows, Falls hangs rows target p ∧ blocks r p = true := by
  unfold delete
  dsimp only
  rw [ite_eq_left_iff]
  simp only [reduceCtorEq, imp_false, not_not, List.any_eq_true, Bool.and_eq_true,
    Bool.not_eq_true']
  constructor
  · rintro ⟨r, hr, hstays, p, hp, hgoes, hblocks⟩
    refine ⟨r, hr, fun hfalls => ?_, p, hp, (gone_iff hp).mp hgoes, hblocks⟩
    rw [(gone_iff hr).mpr hfalls] at hstays
    cases hstays
  · rintro ⟨r, hr, hstays, p, hp, hfalls, hblocks⟩
    refine ⟨r, hr, ?_, p, hp, (gone_iff hp).mpr hfalls, hblocks⟩
    rw [← Bool.not_eq_true, gone_iff hr]
    exact hstays

/-- The rows are there only while those of `all` they hang on are. -/
def Closed (hangs : ρ → ρ → Bool) (all rows : List ρ) : Prop :=
  ∀ r ∈ rows, ∀ p ∈ all, hangs r p = true → p ∈ rows

/-- **A row is there only while those it hangs on are**, after a DELETE too. -/
theorem closed_delete {all : List ρ} (hclosed : Closed hangs all rows)
    (h : delete hangs blocks rows target = some left) : Closed hangs all left := by
  intro r hr p hp hhangs
  obtain ⟨hrows, hstays⟩ := (mem_delete h).mp hr
  have hthere := hclosed r hrows p hp hhangs
  exact (mem_delete h).mpr ⟨hthere, fun hfalls => hstays (.cascade hthere hhangs hfalls)⟩

/-- What a row that is there blocks is there too. -/
theorem closed_blocks_delete {all : List ρ} (hclosed : Closed blocks all rows)
    (h : delete hangs blocks rows target = some left) : Closed blocks all left := by
  intro r hr p hp hblocks
  obtain ⟨hrows, hstays⟩ := (mem_delete h).mp hr
  have hthere := hclosed r hrows p hp hblocks
  refine (mem_delete h).mpr ⟨hthere, fun hfalls => ?_⟩
  have hnone : delete hangs blocks rows target = none :=
    delete_eq_none_iff.mpr ⟨r, hrows, hstays, p, hthere, hfalls, hblocks⟩
  rw [h] at hnone
  cases hnone

end Llamenos.Lib.Cascades

import Mathlib.Algebra.Group.Nat.Defs
import Mathlib.Data.List.Basic
import Mathlib.Order.Basic

/-!
# Calls that return, fail or panic

`Outcome ε α` is what a call of a memory-safe systems language can do: return a value, return an
error of type `ε`, or panic. Panics are kept apart from errors, so that "no panic is reachable"
is a statement about the model and not an assumption of it.

Slices are lists. Indexing and slicing out of bounds panic (`index`, `slice`); fixed-width
arithmetic follows the build profile (`Profile`): an overflow panics where overflow checks are
on and wraps where they are off.

Results:
* `bind_eq_ok`, `bind_returns`, `bind_pure_returns`: what a sequence of calls returns, and when it does not panic.
* `index_ok`, `slice_ok`: in bounds, the access is the list operation.
* `foldlM_eq_ok`, `foldlM_inv`: a loop whose body returns at every iteration is the pure loop,
  and an invariant of the body is an invariant of the loop.
* `foldlM_ok_inv`, `foldlM_ok_split`: the same for a loop that may fail, once it has returned.
* `mapM_eq_ok`, `mapM_spec`: what a loop that collects returns.
* `zipInto_ok`: an in-place loop over two slices is `List.zipWith`.
-/

namespace Llamenos.Lib

/-- Why a call panicked. -/
inductive Panic where
  | arithmetic
  | bounds
  | expect
  deriving DecidableEq

/-- A returned value, a returned error, or a panic. -/
inductive Outcome (ε α : Type) where
  | ok (a : α)
  | err (e : ε)
  | panic (p : Panic)
  deriving DecidableEq

namespace Outcome

variable {ε α β γ σ : Type}

/-- Sequencing: an error or a panic ends the call. -/
def bind : Outcome ε α → (α → Outcome ε β) → Outcome ε β
  | ok a, f => f a
  | err e, _ => err e
  | panic p, _ => panic p

instance : Monad (Outcome ε) where
  pure := ok
  bind := bind

/-- The call came back: with a value or with an error, but not by a panic. -/
def Returns (o : Outcome ε α) : Prop := ∀ p, o ≠ panic p

@[simp] theorem pure_eq (a : α) : (pure a : Outcome ε α) = ok a := rfl

@[simp] theorem ok_bind (a : α) (f : α → Outcome ε β) : (ok a >>= f) = f a := rfl

@[simp] theorem err_bind (e : ε) (f : α → Outcome ε β) : (err e >>= f) = err e := rfl

@[simp] theorem panic_bind (p : Panic) (f : α → Outcome ε β) : (panic p >>= f) = panic p := rfl

instance : LawfulMonad (Outcome ε) :=
  LawfulMonad.mk' _ (fun o => by cases o <;> rfl) (fun _ _ => rfl)
    (fun o _ _ => by cases o <;> rfl)

@[simp] theorem map_ok (f : α → β) (a : α) : f <$> (ok a : Outcome ε α) = ok (f a) := rfl

@[simp] theorem returns_ok (a : α) : Returns (ok a : Outcome ε α) := fun _ h => by cases h

@[simp] theorem returns_err (e : ε) : Returns (err e : Outcome ε α) := fun _ h => by cases h

@[simp] theorem not_returns_panic (p : Panic) : ¬ Returns (panic p : Outcome ε α) :=
  fun h => h p rfl

theorem bind_eq_ok {o : Outcome ε α} {f : α → Outcome ε β} {b : β} :
    (o >>= f) = ok b ↔ ∃ a, o = ok a ∧ f a = ok b := by
  cases o with
  | ok a => simp
  | err e => simp
  | panic p => simp

theorem bind_returns {o : Outcome ε α} (ho : o.Returns) {f : α → Outcome ε β}
    (hf : ∀ a, o = ok a → (f a).Returns) : (o >>= f).Returns := by
  cases o with
  | ok a => exact hf a rfl
  | err e => simp
  | panic p => exact absurd rfl (ho p)

theorem bind_pure_returns {o : Outcome ε α} {f : α → β} :
    (o >>= fun a => pure (f a)).Returns ↔ o.Returns := by
  cases o with
  | ok a => simp
  | err e => simp
  | panic p => simp

/-! ## Loops -/

variable {g : σ → α → Outcome ε σ} {l : List α}

/-- A loop whose body returns at every iteration is the pure loop. -/
theorem foldlM_eq_ok {f : σ → α → σ}
    (h : ∀ s, ∀ a ∈ l, g s a = ok (f s a)) (s : σ) : l.foldlM g s = ok (l.foldl f s) := by
  induction l generalizing s with
  | nil => rfl
  | cons a l ih =>
    rw [List.foldlM_cons, h s a List.mem_cons_self, ok_bind, List.foldl_cons]
    exact ih (fun s b hb => h s b (List.mem_cons_of_mem a hb)) (f s a)

/-- **Loop rule.** An invariant indexed by the iterations done is kept by the whole loop. -/
theorem foldlM_inv (I : List α → σ → Prop) {s : σ}
    (h0 : I [] s) (step : ∀ done a rest t, l = done ++ a :: rest → I done t →
      ∃ t', g t a = ok t' ∧ I (done ++ [a]) t') : ∃ t, l.foldlM g s = ok t ∧ I l t := by
  suffices h : ∀ rest done t, l = done ++ rest → I done t →
      ∃ t', rest.foldlM g t = ok t' ∧ I l t' from h l [] s rfl h0
  intro rest
  induction rest with
  | nil =>
    intro done t hl hI
    rw [List.append_nil] at hl
    exact ⟨t, rfl, hl ▸ hI⟩
  | cons a rest ih =>
    intro done t hl hI
    obtain ⟨t', hg, hI'⟩ := step done a rest t hl hI
    obtain ⟨t'', hf, hI''⟩ := ih (done ++ [a]) t' (by simpa using hl) hI'
    exact ⟨t'', by rw [List.foldlM_cons, hg, ok_bind, hf], hI''⟩

/-- **Run rule.** An invariant that every iteration that returns preserves holds after a loop that
returned. -/
theorem foldlM_ok_inv (I : List α → σ → Prop) {s t : σ}
    (h : l.foldlM g s = ok t) (h0 : I [] s)
    (step : ∀ done a s t, I done s → g s a = ok t → I (done ++ [a]) t) : I l t := by
  suffices hrest : ∀ rest done s, rest.foldlM g s = ok t → I done s → I (done ++ rest) t from
    hrest l [] s h h0
  intro rest
  induction rest with
  | nil =>
    intro done s h hI
    obtain rfl : s = t := by simpa using h
    simpa using hI
  | cons a rest ih =>
    intro done s h hI
    rw [List.foldlM_cons] at h
    obtain ⟨s', hs', hrest⟩ := bind_eq_ok.mp h
    simpa using ih (done ++ [a]) s' hrest (step done a s s' hI hs')

/-- A loop that returned went through each of its iterations. -/
theorem foldlM_ok_split {before after : List α} {a : α} {s t : σ}
    (h : (before ++ a :: after).foldlM g s = ok t) :
    ∃ s₁ s₂, before.foldlM g s = ok s₁ ∧ g s₁ a = ok s₂ ∧ after.foldlM g s₂ = ok t := by
  rw [List.foldlM_append] at h
  obtain ⟨s₁, h₁, h⟩ := bind_eq_ok.mp h
  rw [List.foldlM_cons] at h
  obtain ⟨s₂, h₂, h⟩ := bind_eq_ok.mp h
  exact ⟨s₁, s₂, h₁, h₂, h⟩

theorem mapM_eq_ok {f : α → β} {g : α → Outcome ε β}
    (h : ∀ a ∈ l, g a = ok (f a)) : l.mapM g = ok (l.map f) := by
  induction l with
  | nil => rfl
  | cons a l ih =>
    rw [List.mapM_cons, h a List.mem_cons_self, ok_bind,
      ih fun b hb => h b (List.mem_cons_of_mem a hb)]
    rfl

/-- **What a loop that collects has done**, where every element gives a result or an error: all
results, or the error of one element. -/
theorem mapM_spec {g : α → Outcome ε β} {P : α → β → Prop} {Q : α → ε → Prop}
    (h : ∀ a ∈ l, (∃ b, g a = ok b ∧ P a b) ∨ ∃ e, g a = err e ∧ Q a e) :
    (∃ bs, l.mapM g = ok bs ∧ List.Forall₂ P l bs) ∨ ∃ a ∈ l, ∃ e, l.mapM g = err e ∧ Q a e := by
  induction l with
  | nil => exact .inl ⟨[], rfl, .nil⟩
  | cons a l ih =>
    rw [List.mapM_cons]
    rcases h a List.mem_cons_self with ⟨b, hb, hP⟩ | ⟨e, he, hQ⟩
    · rw [hb, ok_bind]
      rcases ih fun c hc => h c (List.mem_cons_of_mem a hc) with
        ⟨bs, hbs, hall⟩ | ⟨c, hc, e, he, hQ⟩
      · exact .inl ⟨b :: bs, by rw [hbs]; rfl, .cons hP hall⟩
      · exact .inr ⟨c, List.mem_cons_of_mem a hc, e, by rw [he]; rfl, hQ⟩
    · exact .inr ⟨a, List.mem_cons_self, e, by rw [he]; rfl, hQ⟩

/-! ## Slices -/

/-- `xs[i]`. -/
def index (xs : List α) (i : Nat) : Outcome ε α :=
  match xs[i]? with
  | some a => ok a
  | none => panic .bounds

/-- `&xs[lo..hi]`. -/
def slice (xs : List α) (lo hi : Nat) : Outcome ε (List α) :=
  if lo ≤ hi ∧ hi ≤ xs.length then ok ((xs.take hi).drop lo) else panic .bounds

/-- `xs[i] = a`. -/
def store (xs : List α) (i : Nat) (a : α) : Outcome ε (List α) :=
  if i < xs.length then ok (xs.set i a) else panic .bounds

@[simp] theorem index_ok {xs : List α} {i : Nat} (h : i < xs.length) :
    index (ε := ε) xs i = ok xs[i] := by
  unfold index
  rw [List.getElem?_eq_getElem h]

theorem slice_ok {xs : List α} {lo hi : Nat} (h : lo ≤ hi) (h' : hi ≤ xs.length) :
    slice (ε := ε) xs lo hi = ok ((xs.take hi).drop lo) := if_pos ⟨h, h'⟩

theorem slice_panic {xs : List α} {lo hi : Nat} (h : ¬ (lo ≤ hi ∧ hi ≤ xs.length)) :
    slice (ε := ε) xs lo hi = panic .bounds := if_neg h

theorem store_ok {xs : List α} {i : Nat} (h : i < xs.length) (a : α) :
    store (ε := ε) xs i a = ok (xs.set i a) := if_pos h

theorem set_append_replicate (xs : List α) (n : Nat) (a z : α) :
    (xs ++ List.replicate (n + 1) z).set xs.length a = (xs ++ [a]) ++ List.replicate n z := by
  rw [List.set_append_right _ _ (Nat.le_refl _), Nat.sub_self, List.replicate_succ,
    List.set_cons_zero, List.append_assoc, List.singleton_append]

/-- The element that follows `done` in an enumeration from 0 is the number of those done. -/
theorem eq_length_of_range {n i : Nat} {done rest : List Nat}
    (h : List.range n = done ++ i :: rest) : i = done.length ∧ i < n := by
  have hlen := congrArg List.length h
  simp only [List.length_range, List.length_append, List.length_cons] at hlen
  have hget := congrArg (fun l => l[done.length]?) h
  simp only [List.getElem?_append_right (Nat.le_refl _), Nat.sub_self, List.getElem?_cons_zero,
    List.getElem?_range (show done.length < n by omega), Option.some.injEq] at hget
  omega

/-- A loop that fills a fresh vector from left to right builds the list of the values. -/
theorem foldlM_store {f : Nat → Outcome ε α} {g : Nat → α} {n : Nat} (z : α)
    (h : ∀ i < n, f i = ok (g i)) :
    (List.range n).foldlM (fun xs i => do let a ← f i; store xs i a) (List.replicate n z) =
      ok ((List.range n).map g) := by
  obtain ⟨t, hf, hI⟩ := foldlM_inv
    (g := fun xs i => do let a ← f i; store xs i a)
    (fun done xs => xs = done.map g ++ List.replicate (n - done.length) z)
    (l := List.range n) (s := List.replicate n z) rfl
    (by
      rintro done i rest _ hl rfl
      obtain ⟨hi, hn⟩ := eq_length_of_range hl
      have hr : n - done.length = (n - (done ++ [i]).length) + 1 := by
        simp only [List.length_append, List.length_singleton]
        omega
      have hset : (done.map g ++ List.replicate (n - done.length) z).set i (g i) =
          (done ++ [i]).map g ++ List.replicate (n - (done ++ [i]).length) z := by
        rw [hr, show i = (done.map g).length by rw [List.length_map, hi], set_append_replicate,
          List.map_append, List.map_singleton, List.length_map, ← hi]
      refine ⟨_, ?_, hset⟩
      rw [h i hn, ok_bind, store_ok]
      simp only [List.length_append, List.length_map, List.length_replicate]
      omega)
  rw [hf, hI, List.length_range, Nat.sub_self, List.replicate_zero, List.append_nil]

/-- A loop that combines the elements from `off` on, in place, with those of another slice. -/
def zipInto (f : α → β → α) (zs : List α) (off : Nat) (ys : List β) (n : Nat) :
    Outcome ε (List α) :=
  (List.range n).foldlM (fun zs i => do
    let z ← index zs (off + i)
    let y ← index ys i
    store zs (off + i) (f z y)) zs

theorem zipInto_cons (f : α → β → α) (zs : List α) (off : Nat) (y : β) (ys : List β) (n : Nat)
    (h : off < zs.length) : zipInto (ε := ε) f zs off (y :: ys) (n + 1) =
      zipInto f (zs.set off (f zs[off] y)) (off + 1) ys n := by
  unfold zipInto
  rw [List.range_succ_eq_map, List.foldlM_cons, Nat.add_zero, index_ok h, ok_bind,
    index_ok (by simp), ok_bind, List.getElem_cons_zero, store_ok h, ok_bind, List.foldlM_map]
  refine congrArg (fun step => List.foldlM step _ _) ?_
  funext zs i
  rw [show off + (i + 1) = off + 1 + i by omega]
  rfl

theorem zipInto_ok (f : α → β → α) (pre xs : List α) (ys : List β) (h : ys.length = xs.length) :
    zipInto (ε := ε) f (pre ++ xs) pre.length ys xs.length = ok (pre ++ List.zipWith f xs ys) := by
  induction xs generalizing pre ys with
  | nil => simp [zipInto]
  | cons x xs ih =>
    cases ys with
    | nil => simp at h
    | cons y ys =>
      have hset : (pre ++ x :: xs).set pre.length (f x y) = (pre ++ [f x y]) ++ xs := by
        rw [List.set_append_right _ _ (Nat.le_refl _), Nat.sub_self, List.set_cons_zero,
          List.append_assoc, List.singleton_append]
      have hlen : pre.length + 1 = (pre ++ [f x y]).length := by simp
      have hlt : pre.length < (pre ++ x :: xs).length := by simp
      have hget : (pre ++ x :: xs)[pre.length] = x := by simp
      rw [List.length_cons, zipInto_cons f _ _ _ _ _ hlt, hget, hset, hlen,
        ih (pre ++ [f x y]) ys (by simpa using h), List.zipWith_cons_cons, List.append_assoc,
        List.singleton_append]

end Outcome

/-! ## Fixed-width arithmetic -/

/-- A build profile: whether arithmetic overflow is checked (and panics) or wraps. -/
structure Profile where
  overflowChecks : Bool

namespace Profile

variable {ε : Type}

/-- What an overflowing operation does: panic where checked, else leave the wrapped value. -/
def overflow {α : Type} (p : Profile) (wrapped : α) : Outcome ε α :=
  if p.overflowChecks then .panic .arithmetic else .ok wrapped

/-- `a - b` on 64-bit `usize`. -/
def usizeSub (p : Profile) (a b : Nat) : Outcome ε Nat :=
  if b ≤ a then .ok (a - b) else p.overflow (a + 2 ^ 64 - b)

/-- `a + b` on `u32`. -/
def u32Add (p : Profile) (a b : UInt32) : Outcome ε UInt32 :=
  if a.toNat + b.toNat < 2 ^ 32 then .ok (a + b) else p.overflow (a + b)

/-- `a - b` on `u32`. -/
def u32Sub (p : Profile) (a b : UInt32) : Outcome ε UInt32 :=
  if b ≤ a then .ok (a - b) else p.overflow (a - b)

/-- `a + b` on `u64`. -/
def u64Add (p : Profile) (a b : UInt64) : Outcome ε UInt64 :=
  if a.toNat + b.toNat < 2 ^ 64 then .ok (a + b) else p.overflow (a + b)

theorem usizeSub_ok (p : Profile) {a b : Nat} (h : b ≤ a) :
    p.usizeSub (ε := ε) a b = .ok (a - b) := if_pos h

theorem u32Add_ok (p : Profile) {a b : UInt32} (h : a.toNat + b.toNat < 2 ^ 32) :
    p.u32Add (ε := ε) a b = .ok (a + b) := if_pos h

theorem u32Sub_ok (p : Profile) {a b : UInt32} (h : b ≤ a) :
    p.u32Sub (ε := ε) a b = .ok (a - b) := if_pos h

end Profile

end Llamenos.Lib

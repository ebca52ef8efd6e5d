/-!
# Programs that call what may fail

A program is the tree of the calls that it makes: each call is answered, or fails, and what the
program does next depends on the answer. Its behaviours are the paths of the tree: the calls in
order with their answers, and the program's result. An observer goes along a behaviour and keeps a
state of its own; what holds of its state after every behaviour is proved piece by piece.

Results:
* `wp_iff`: the weakest precondition is about every behaviour.
* `wp_bind`, `wp_attempt`, `wp_forEach`: the rules.
* `behaves_runWith`: a program whose calls are answered by a function behaves so.
-/

namespace Llamenos.Lib.Effects

variable {C E α β σ : Type} {R : C → Type}

/-- A program that makes calls `c`, each answered with an `R c` or failing with an `E`. -/
inductive Program (C : Type) (R : C → Type) (E α : Type) where
  | done (result : Except E α)
  | call (c : C) (next : Except E (R c) → Program C R E α)

namespace Program

def bind : Program C R E α → (α → Program C R E β) → Program C R E β
  | .done (.ok a), f => f a
  | .done (.error e), _ => .done (.error e)
  | .call c next, f => .call c fun a => (next a).bind f

instance : Monad (Program C R E) where
  pure a := .done (.ok a)
  bind := bind

/-- One call. -/
def request (c : C) : Program C R E (R c) := .call c .done

def fail (e : E) : Program C R E α := .done (.error e)

/-- The program's result as a value: what a `try` block catches. -/
def attempt : Program C R E α → Program C R E (Except E α)
  | .done r => .done (.ok r)
  | .call c next => .call c fun a => (next a).attempt

/-- A `finally` block: it runs whatever the result is, which it replaces only if it fails. -/
def andFinally (p : Program C R E α) (last : Program C R E Unit) : Program C R E α := do
  let r ← p.attempt
  last
  .done r

/-- A loop over a list that keeps a state, and may return early. -/
def forEach {ι ρ : Type} (body : α → ι → Program C R E (Except ρ α)) :
    α → List ι → Program C R E (Except ρ α)
  | a, [] => pure (.ok a)
  | a, i :: is => do
    match ← body a i with
    | .ok a => forEach body a is
    | .error r => pure (.error r)

end Program

/-- A call, and how it was answered. -/
abbrev Entry (C : Type) (R : C → Type) (E : Type) := (c : C) × Except E (R c)

/-- The program makes these calls, answered so, and has this result. -/
def Behaves : Program C R E α → List (Entry C R E) → Except E α → Prop
  | .done r, trace, result => trace = [] ∧ result = r
  | .call c next, trace, result =>
    ∃ a rest, trace = ⟨c, a⟩ :: rest ∧ Behaves (next a) rest result

/-- Every behaviour takes the observer from `s` to where `Q` holds, of the result and its state. -/
def wp (obs : σ → Entry C R E → σ) :
    Program C R E α → (Except E α → σ → Prop) → σ → Prop
  | .done r, Q, s => Q r s
  | .call c next, Q, s => ∀ a, wp obs (next a) Q (obs s ⟨c, a⟩)

variable {obs : σ → Entry C R E → σ} {Q Q' : Except E α → σ → Prop} {s : σ}
  {p : Program C R E α}

/-- The weakest precondition is about every behaviour. -/
theorem wp_iff : wp obs p Q s ↔ ∀ trace r, Behaves p trace r → Q r (trace.foldl obs s) := by
  induction p generalizing s with
  | done r =>
    constructor
    · rintro h trace r' ⟨rfl, rfl⟩
      exact h
    · exact fun h => h [] r ⟨rfl, rfl⟩
  | call c next ih =>
    constructor
    · rintro h trace r ⟨a, rest, rfl, hrest⟩
      exact (ih a).mp (h a) rest r hrest
    · intro h a
      exact (ih a).mpr fun rest r hrest => h (⟨c, a⟩ :: rest) r ⟨a, rest, rfl, hrest⟩

theorem wp_mono (h : wp obs p Q s) (hQ : ∀ r t, Q r t → Q' r t) : wp obs p Q' s := by
  induction p generalizing s with
  | done r => exact hQ r s h
  | call c next ih => exact fun a => ih a (h a)

@[simp]
theorem wp_bind {f : α → Program C R E β} {Q : Except E β → σ → Prop} :
    wp obs (p >>= f) Q s ↔
      wp obs p (fun r t => match r with
        | .ok a => wp obs (f a) Q t
        | .error e => Q (.error e) t) s := by
  induction p generalizing s with
  | done r => cases r <;> exact Iff.rfl
  | call c next ih => exact forall_congr' fun a => ih a

@[simp]
theorem wp_attempt {Q : Except E (Except E α) → σ → Prop} :
    wp obs p.attempt Q s ↔ wp obs p (fun r => Q (.ok r)) s := by
  induction p generalizing s with
  | done r => exact Iff.rfl
  | call c next ih => exact forall_congr' fun a => ih a

/-- **A loop keeps** what each of its rounds keeps, until it returns or fails. -/
theorem wp_forEach {ι ρ : Type} {body : α → ι → Program C R E (Except ρ α)} {I : σ → Prop}
    {Q : Except E (Except ρ α) → σ → Prop} {is : List ι} {a : α}
    (hbody : ∀ a, ∀ i ∈ is, ∀ s, I s → wp obs (body a i) (fun r t => match r with
      | .ok (.ok _) => I t
      | r => Q r t) s)
    (hdone : ∀ a t, I t → Q (.ok (.ok a)) t) (hs : I s) :
    wp obs (Program.forEach body a is) Q s := by
  induction is generalizing a s with
  | nil => exact hdone a s hs
  | cons i is ih =>
    rw [Program.forEach, wp_bind]
    refine wp_mono (hbody a i List.mem_cons_self s hs) fun r t ht => ?_
    match r, ht with
    | .ok (.ok a), ht => exact ih (fun a i hi => hbody a i (List.mem_cons_of_mem _ hi)) ht
    | .ok (.error _), ht => exact ht
    | .error _, ht => exact ht

/-! ## Answers by a function -/

/-- The behaviour of a program whose calls are answered by a function. -/
def runWith (answer : (c : C) → Except E (R c)) :
    Program C R E α → List (Entry C R E) × Except E α
  | .done r => ([], r)
  | .call c next =>
    let (trace, r) := runWith answer (next (answer c))
    (⟨c, answer c⟩ :: trace, r)

theorem behaves_runWith (answer : (c : C) → Except E (R c)) (p : Program C R E α) :
    Behaves p (runWith answer p).1 (runWith answer p).2 := by
  induction p with
  | done r => exact ⟨rfl, rfl⟩
  | call c next ih => exact ⟨answer c, _, rfl, ih (answer c)⟩

end Llamenos.Lib.Effects

import Mathlib.Data.List.Forall2
import Llamenos.Lib.Runs

/-!
# Noninterference

Parties act on a shared state, one after the other, and each sees a view of it. A party's view
depends on its own events alone if it is what the run of those alone would have shown. And what is
kept from an onlooker is not to be seen in what the system emits: two runs that differ in it alone
emit alike.

Results:
* `sees_own_iff`: where the party's own events act on what it sees, **its view depends on them
  alone, all along, exactly if no event of another party changes it**.
* `two_runs`: steps that keep states alike, and emit alike, make **runs that emit alike**.
-/

namespace Llamenos.Lib.Noninterference

variable {σ ε ν : Type} {step : σ → ε → σ} {own : ε → Prop} [DecidablePred own] {view : σ → ν}

/-- Of what it does not see, nothing reaches the party's view by its own events. -/
def Consistent (step : σ → ε → σ) (own : ε → Prop) (view : σ → ν) : Prop :=
  ∀ s t e, own e → view s = view t → view (step s e) = view (step t e)

/-- The party sees what it would if the others had done nothing. -/
def SeesOwn (step : σ → ε → σ) (own : ε → Prop) [DecidablePred own] (view : σ → ν) (s : σ)
    (es : List ε) : Prop :=
  view (es.foldl step s) = view ((es.filter own).foldl step s)

/-- A party that sees its own alone goes on so with its own events, and with those of the others
exactly if its view stays as it is. -/
theorem seesOwn_concat_iff (hown : Consistent step own view) {s : σ} {es : List ε} {e : ε}
    (h : SeesOwn step own view s es) :
    SeesOwn step own view s (es ++ [e]) ↔
      (¬ own e → view (step (es.foldl step s) e) = view (es.foldl step s)) := by
  unfold SeesOwn at *
  rw [List.foldl_append, List.foldl_cons, List.foldl_nil, List.filter_append]
  by_cases he : own e
  · rw [List.filter_cons_of_pos (by simpa using he), List.filter_nil, List.foldl_append,
      List.foldl_cons, List.foldl_nil]
    exact iff_of_true (hown _ _ e he h) fun hother => absurd he hother
  · rw [List.filter_cons_of_neg (by simpa using he), List.filter_nil, List.append_nil, ← h]
    exact ⟨fun hsame _ => hsame, fun hsame => hsame he⟩

/-- **Unwinding.** The party sees its own alone all along exactly if no event of another changes
what it sees. -/
theorem sees_own_iff (hown : Consistent step own view) {s : σ} {es : List ε} :
    (∀ before after, es = before ++ after → SeesOwn step own view s before) ↔
      ∀ before e after, es = before ++ e :: after → ¬ own e →
        view (step (before.foldl step s) e) = view (before.foldl step s) := by
  constructor
  · intro h before e after hes
    have hnext := h (before ++ [e]) after (hes.trans (List.append_cons before e after))
    exact (seesOwn_concat_iff hown (h before (e :: after) hes)).mp hnext
  · intro h before
    induction before using List.reverseRecOn with
    | nil => exact fun _ _ => rfl
    | append_singleton before e ih =>
      intro after hes
      have hsplit : es = before ++ e :: after := hes.trans (List.append_cons before e after).symm
      exact (seesOwn_concat_iff hown (ih (e :: after) hsplit)).mpr (h before e after hsplit)

/-! ## Two runs -/

/-- **Two-run rule.** If steps that differ in what is not to be seen lead from alike states to alike
ones, and emit alike, so do runs of them. -/
theorem two_runs {σ ε ω : Type} {step : σ → ε → Option σ} {out : σ → ε → List ω}
    {R : σ → σ → Prop} {E : ε → ε → Prop} {O : ω → ω → Prop}
    (hstep : ∀ {s s' e e' t t'}, R s s' → E e e' → step s e = some t → step s' e' = some t' →
      R t t' ∧ List.Forall₂ O (out s e) (out s' e')) {es es' : List ε} (hes : List.Forall₂ E es es')
    {s s' t t' : σ} (h : R s s') (hrun : Runs.run step s es = some t)
    (hrun' : Runs.run step s' es' = some t') :
    R t t' ∧ List.Forall₂ O (Runs.emitted step out s es) (Runs.emitted step out s' es') := by
  induction hes generalizing s s' with
  | nil =>
    obtain rfl := Option.some.inj hrun
    obtain rfl := Option.some.inj hrun'
    exact ⟨h, .nil⟩
  | cons he _ ih =>
    obtain ⟨u, hu, hrest⟩ := Runs.run_cons.mp hrun
    obtain ⟨u', hu', hrest'⟩ := Runs.run_cons.mp hrun'
    obtain ⟨hnext, hout⟩ := hstep h he hu hu'
    obtain ⟨hlast, hrests⟩ := ih hnext hrest hrest'
    rw [Runs.emitted_cons hu, Runs.emitted_cons hu']
    exact ⟨hlast, List.rel_append hout hrests⟩

end Llamenos.Lib.Noninterference

import Mathlib.Data.List.Induction
import Mathlib.Logic.Function.Basic

/-!
# Runs of a step function

A system of concurrent parties is a step function over its events: `step s e` is the state after
`e`, or `none` where `e` cannot happen in `s`. A run is a list of events, each of which can happen
when its turn comes; every interleaving of the parties is one.

What is said of a run is said of its steps (`Along`: a condition on a state and the event taken in
it), of the state it ends in, or of what its steps emit (`emitted`).

Results:
* `run_inv`: what every step preserves, every run preserves.
* `run_inv_along`: the same in the runs whose steps all meet a condition.
* `stuck_of_run_eq_none`: where a run that cannot go on is stuck.
* `run_history`: the same for what relates a state to all the events that led to it.
* `run_emitted`: the same for what relates a state to all that the run has emitted;
  `run_emitted_inv` in the runs whose steps all meet a condition.
* `always_iff_along`: what each step keeps exactly under a condition holds all along a run exactly
  if all its steps meet the condition; `always_iff_along_of` in the runs that meet another one,
  `always_iff_along_mem` where this is known of the run's own events only, `inv_iff_along`,
  `inv_iff_along_of` and `inv_iff_along_mem` where nothing emitted matters.
* `end_iff_along`: where there is no way back, a run ends well exactly if all its steps meet the
  condition.
* `recording_eq_some`: a system that keeps what it has emitted, where a condition on a step is about
  all that went before.
* `along_iff_split`, `step_of_run`: a run's steps, each with the state it is taken in.
* `run_map`, `emitted_map`: a system whose events stand for those of another.
* `run_rel`: two systems that go on alike, step by step, run alike.
* `update_eq_some`: what a table of the parties' own states holds after one of them has moved.
-/

namespace Llamenos.Lib.Runs

variable {σ ε ω : Type}

/-- The state after the events, one after the other. -/
def run (step : σ → ε → Option σ) : σ → List ε → Option σ
  | s, [] => some s
  | s, e :: es => (step s e).bind fun s' => run step s' es

/-- Every step of the run meets the condition. -/
def Along (step : σ → ε → Option σ) (P : σ → ε → Prop) : σ → List ε → Prop
  | _, [] => True
  | s, e :: es => P s e ∧ ∀ s', step s e = some s' → Along step P s' es

/-- What the steps of the run emit, in order. -/
def emitted (step : σ → ε → Option σ) (out : σ → ε → List ω) : σ → List ε → List ω
  | _, [] => []
  | s, e :: es => out s e ++ ((step s e).elim [] fun s' => emitted step out s' es)

variable {step : σ → ε → Option σ}

@[simp] theorem run_nil (s : σ) : run step s [] = some s := rfl

theorem run_cons {s t : σ} {e : ε} {es : List ε} :
    run step s (e :: es) = some t ↔ ∃ s', step s e = some s' ∧ run step s' es = some t :=
  Option.bind_eq_some_iff

theorem run_append {s t : σ} {es fs : List ε} :
    run step s (es ++ fs) = some t ↔ ∃ s', run step s es = some s' ∧ run step s' fs = some t := by
  induction es generalizing s with
  | nil => simp
  | cons e es ih =>
    rw [List.cons_append, run_cons]
    constructor
    · rintro ⟨s', he, h⟩
      obtain ⟨s'', hes, hfs⟩ := ih.mp h
      exact ⟨s'', run_cons.mpr ⟨s', he, hes⟩, hfs⟩
    · rintro ⟨s'', h, hfs⟩
      obtain ⟨s', he, hes⟩ := run_cons.mp h
      exact ⟨s', he, ih.mpr ⟨s'', hes, hfs⟩⟩

/-- What is left of a run goes on from where its beginning led. -/
theorem run_rest {s t u : σ} {es fs : List ε} (h : run step s (es ++ fs) = some t)
    (hbefore : run step s es = some u) : run step u fs = some t := by
  obtain ⟨v, hv, hrest⟩ := run_append.mp h
  obtain rfl := Option.some.inj (hbefore.symm.trans hv)
  exact hrest

/-- **Run rule.** What every step preserves, every run preserves. -/
theorem run_inv {I : σ → Prop} (hstep : ∀ s e s', I s → step s e = some s' → I s') {s t : σ}
    {es : List ε} (hs : I s) (h : run step s es = some t) : I t := by
  induction es generalizing s with
  | nil => exact Option.some.inj h ▸ hs
  | cons e es ih =>
    obtain ⟨s', he, hes⟩ := run_cons.mp h
    exact ih (hstep s e s' hs he) hes

/-- **Run rule with a condition** on the steps. -/
theorem run_inv_along {I : σ → Prop} {P : σ → ε → Prop}
    (hstep : ∀ s e s', I s → P s e → step s e = some s' → I s') {s t : σ} {es : List ε}
    (hs : I s) (hP : Along step P s es) (h : run step s es = some t) : I t := by
  induction es generalizing s with
  | nil => exact Option.some.inj h ▸ hs
  | cons e es ih =>
    obtain ⟨s', he, hes⟩ := run_cons.mp h
    exact ih (hstep s e s' hs hP.1 he) (hP.2 s' he) hes

/-- A run that cannot go on is stuck at one of its events, in a state that the steps before it keep
`I` up to. -/
theorem stuck_of_run_eq_none {I : σ → Prop} {s : σ} {es : List ε}
    (hstep : ∀ e ∈ es, ∀ s s', I s → step s e = some s' → I s') (hs : I s)
    (h : run step s es = none) : ∃ e ∈ es, ∃ t, I t ∧ step t e = none := by
  induction es generalizing s with
  | nil => cases h
  | cons e es ih =>
    cases he : step s e with
    | none => exact ⟨e, List.mem_cons_self, s, hs, he⟩
    | some s' =>
      have hrest : run step s' es = none := by simpa [run, he] using h
      obtain ⟨d, hd, hstuck⟩ := ih (fun d hd => hstep d (List.mem_cons_of_mem e hd))
        (hstep e List.mem_cons_self s s' hs he) hrest
      exact ⟨d, List.mem_cons_of_mem e hd, hstuck⟩

/-- **Run rule on what has happened.** What holds of no event, and is kept when the run goes on by
one, holds of the events of every run. -/
theorem run_history {s : σ} {I : List ε → σ → Prop} (hnil : I [] s)
    (hstep : ∀ es u e u', run step s es = some u → I es u → step u e = some u' →
      I (es ++ [e]) u') {t : σ} {es : List ε} (h : run step s es = some t) : I es t := by
  induction es using List.reverseRecOn generalizing t with
  | nil => exact Option.some.inj h ▸ hnil
  | append_singleton es e ih =>
    obtain ⟨u, hes, he⟩ := run_append.mp h
    obtain ⟨u', hu', hlast⟩ := run_cons.mp he
    exact Option.some.inj hlast ▸ hstep es u e u' hes (ih hes) hu'

/-- A run's steps meet a condition if each does in the state it is taken in. -/
theorem along_iff_split {P : σ → ε → Prop} {s : σ} {es : List ε} :
    Along step P s es ↔
      ∀ before e after t, es = before ++ e :: after → run step s before = some t → P t e := by
  induction es generalizing s with
  | nil =>
    constructor
    · intro _ before e after t h
      simp at h
    · intro _
      trivial
  | cons d es ih =>
    constructor
    · rintro ⟨hd, hes⟩ before e after t h hrun
      cases before with
      | nil =>
        obtain ⟨rfl, rfl⟩ := List.cons.inj h
        exact Option.some.inj hrun ▸ hd
      | cons b before =>
        obtain ⟨rfl, rfl⟩ := List.cons.inj h
        obtain ⟨s', hs', hbefore⟩ := run_cons.mp hrun
        exact ih.mp (hes s' hs') before e after t rfl hbefore
    · intro h
      refine ⟨h [] d es s rfl rfl, fun s' hs' => ih.mpr fun before e after t hes hrun => ?_⟩
      exact h (d :: before) e after t (by rw [hes]; rfl) (run_cons.mpr ⟨s', hs', hrun⟩)

/-- A run's step, taken in the state that the events before it lead to. -/
theorem step_of_run {s t u : σ} {es before after : List ε} {e : ε} (h : run step s es = some t)
    (hes : es = before ++ e :: after) (hbefore : run step s before = some u) :
    ∃ u', step u e = some u' ∧ run step s (before ++ [e]) = some u' := by
  rw [hes] at h
  obtain ⟨u', hstep, -⟩ := run_cons.mp (run_rest h hbefore)
  exact ⟨u', hstep, run_append.mpr ⟨u, hbefore, run_cons.mpr ⟨u', hstep, rfl⟩⟩⟩

/-- What holds all along a run holds all along what is left of it after a step. -/
theorem always_tail {G : σ → Prop} {s s' : σ} {e : ε} {es : List ε} (he : step s e = some s')
    (h : ∀ before after m, e :: es = before ++ after → run step s before = some m → G m) :
    ∀ before after m, es = before ++ after → run step s' before = some m → G m := by
  intro before after m hsplit hrun
  exact h (e :: before) after m (by rw [hsplit]; rfl) (run_cons.mpr ⟨s', he, hrun⟩)

theorem along_cons {P : σ → ε → Prop} {s : σ} {e : ε} {es : List ε} :
    Along step P s (e :: es) ↔ P s e ∧ (step s e).elim True fun s' => Along step P s' es := by
  refine and_congr_right fun _ => ?_
  cases step s e <;> simp

theorem Along.cons {P : σ → ε → Prop} {s t : σ} {e : ε} {es : List ε} (hP : P s e)
    (he : step s e = some t) (h : Along step P t es) : Along step P s (e :: es) :=
  along_cons.mpr ⟨hP, by rwa [he]⟩

instance along_decidable (P : σ → ε → Prop) [hP : ∀ s e, Decidable (P s e)] :
    ∀ s es, Decidable (Along step P s es)
  | _, [] => isTrue trivial
  | s, e :: es =>
    have _next : Decidable ((step s e).elim True fun s' => Along step P s' es) :=
      match step s e with
      | none => isTrue trivial
      | some s' => along_decidable P s' es
    have _first : Decidable (P s e) := hP s e
    decidable_of_iff (P s e ∧ (step s e).elim True fun s' => Along step P s' es) along_cons.symm

theorem along_of_mem {P : σ → ε → Prop} {s : σ} {es : List ε} (h : ∀ e ∈ es, ∀ s, P s e) :
    Along step P s es := by
  induction es generalizing s with
  | nil => trivial
  | cons e es ih =>
    refine ⟨h e List.mem_cons_self s, fun s' _ => ih fun d hd => ?_⟩
    exact h d (List.mem_cons_of_mem e hd)

theorem Along.mono {P Q : σ → ε → Prop} (h : ∀ s e, P s e → Q s e) {s : σ} {es : List ε}
    (hP : Along step P s es) : Along step Q s es := by
  induction es generalizing s with
  | nil => trivial
  | cons e es ih => exact ⟨h s e hP.1, fun s' he => ih (hP.2 s' he)⟩

/-- A run's beginning meets what the run meets. -/
theorem Along.and {P Q : σ → ε → Prop} {s : σ} {es : List ε} (hP : Along step P s es)
    (hQ : Along step Q s es) : Along step (fun s e => P s e ∧ Q s e) s es := by
  induction es generalizing s with
  | nil => trivial
  | cons e es ih => exact ⟨⟨hP.1, hQ.1⟩, fun s' he => ih (hP.2 s' he) (hQ.2 s' he)⟩

theorem Along.left {P : σ → ε → Prop} {s : σ} {es fs : List ε} (h : Along step P s (es ++ fs)) :
    Along step P s es := by
  induction es generalizing s with
  | nil => trivial
  | cons e es ih => exact ⟨h.1, fun s' he => ih (h.2 s' he)⟩

/-- So does what is left of it. -/
theorem Along.right {P : σ → ε → Prop} {s t : σ} {es fs : List ε} (h : Along step P s (es ++ fs))
    (hrun : run step s es = some t) : Along step P t fs := by
  induction es generalizing s with
  | nil => exact Option.some.inj hrun ▸ h
  | cons e es ih =>
    obtain ⟨s', he, hes⟩ := run_cons.mp hrun
    exact ih (h.2 s' he) hes

/-- A run that goes on meets what both its parts meet. -/
theorem Along.append {P : σ → ε → Prop} {s t : σ} {es fs : List ε} (hes : Along step P s es)
    (hrun : run step s es = some t) (hfs : Along step P t fs) : Along step P s (es ++ fs) := by
  induction es generalizing s with
  | nil => exact Option.some.inj hrun ▸ hfs
  | cons e es ih =>
    obtain ⟨s', he, hrest⟩ := run_cons.mp hrun
    refine ⟨hes.1, fun s'' hs'' => ?_⟩
    obtain rfl := Option.some.inj (he.symm.trans hs'')
    exact ih (hes.2 s' he) hrest

/-! ## What a run has emitted -/

section Emitted

variable {out : σ → ε → List ω} {I G : σ → List ω → Prop} {P : σ → ε → Prop}

/-- What is emitted in a run is emitted by one of its steps. -/
theorem mem_emitted {w : ω} {s t : σ} {es : List ε} (hw : w ∈ emitted step out s es)
    (h : run step s es = some t) : ∃ before e after u, es = before ++ e :: after ∧
      run step s before = some u ∧ w ∈ out u e := by
  induction es generalizing s with
  | nil => cases hw
  | cons e es ih =>
    obtain ⟨s', he, hes⟩ := run_cons.mp h
    rw [emitted, he, Option.elim_some, List.mem_append] at hw
    rcases hw with hw | hw
    · exact ⟨[], e, es, s, rfl, rfl, hw⟩
    · obtain ⟨before, d, after, u, rfl, hu, hd⟩ := ih hw hes
      exact ⟨e :: before, d, after, u, rfl, run_cons.mpr ⟨s', he, hu⟩, hd⟩

theorem emitted_cons {s s' : σ} {e : ε} {es : List ε} (he : step s e = some s') :
    emitted step out s (e :: es) = out s e ++ emitted step out s' es := by
  rw [emitted, he, Option.elim_some]

/-- What a run emits is what its beginning emits, and what the rest does. -/
theorem emitted_append {s t : σ} {es fs : List ε} (h : run step s es = some t) :
    emitted step out s (es ++ fs) = emitted step out s es ++ emitted step out t fs := by
  induction es generalizing s with
  | nil => rw [Option.some.inj h, emitted, List.nil_append, List.nil_append]
  | cons e es ih =>
    obtain ⟨s', he, hes⟩ := run_cons.mp h
    rw [List.cons_append, emitted_cons he, emitted_cons he, ih hes, List.append_assoc]

/-- **Run rule with a history**, and a condition on the steps. -/
theorem run_emitted_inv
    (hstep : ∀ s ws e s', I s ws → P s e → step s e = some s' → I s' (ws ++ out s e)) {s t : σ}
    (ws : List ω) {es : List ε} (hs : I s ws) (hP : Along step P s es)
    (h : run step s es = some t) : I t (ws ++ emitted step out s es) := by
  induction es generalizing s ws with
  | nil => rwa [emitted, List.append_nil, ← Option.some.inj h]
  | cons e es ih =>
    obtain ⟨s', he, hes⟩ := run_cons.mp h
    rw [emitted_cons he, ← List.append_assoc]
    exact ih _ (hstep s ws e s' hs hP.1 he) (hP.2 s' he) hes

/-- **Run rule for what is emitted**, with no condition. -/
theorem run_emitted
    (hstep : ∀ s ws e s', I s ws → step s e = some s' → I s' (ws ++ out s e)) {s t : σ}
    (ws : List ω) {es : List ε} (hs : I s ws) (h : run step s es = some t) :
    I t (ws ++ emitted step out s es) :=
  run_emitted_inv (P := fun _ _ => True) (fun s ws e s' hs _ => hstep s ws e s' hs) ws hs
    (along_of_mem fun _ _ _ => trivial) h

variable (out) in
/-- **Exactness rule for some runs.** Where each step that meets `Q` keeps `G` exactly if it meets
`P`, a run whose steps meet `Q` keeps `G` all along exactly if they all meet `P`. -/
theorem always_iff_along_of {Q : σ → ε → Prop} {s t : σ} (ws : List ω) {es : List ε}
    (hI : ∀ s ws e s', I s ws → Q s e → step s e = some s' → I s' (ws ++ out s e))
    (hG : ∀ s ws e s', I s ws → G s ws → Q s e → step s e = some s' →
      (G s' (ws ++ out s e) ↔ P s e))
    (hs : I s ws) (hg : G s ws) (hQ : Along step Q s es) (h : run step s es = some t) :
    (∀ before after m, es = before ++ after → run step s before = some m →
        G m (ws ++ emitted step out s before)) ↔ Along step P s es := by
  induction es generalizing s ws with
  | nil =>
    refine iff_of_true (fun before after m hes hm => ?_) trivial
    obtain rfl := (List.nil_eq_append_iff.mp hes).1
    rwa [emitted, List.append_nil, ← Option.some.inj hm]
  | cons e es ih =>
    obtain ⟨s', he, hes⟩ := run_cons.mp h
    have hs' := hI s ws e s' hs hQ.1 he
    have hkeep := hG s ws e s' hs hg hQ.1 he
    have htail := fun hg' => ih (ws ++ out s e) hs' hg' (hQ.2 s' he) hes
    constructor
    · intro hall
      have hg' : G s' (ws ++ out s e) := by
        have := hall [e] es s' rfl (run_cons.mpr ⟨s', he, rfl⟩)
        rwa [emitted_cons he, emitted, List.append_nil] at this
      refine ⟨hkeep.mp hg', fun s'' hs'' => ?_⟩
      obtain rfl := Option.some.inj (he.symm.trans hs'')
      refine (htail hg').mp fun before after m hsplit hm => ?_
      have := hall (e :: before) after m (by rw [hsplit]; rfl) (run_cons.mpr ⟨s', he, hm⟩)
      rwa [emitted_cons he, ← List.append_assoc] at this
    · rintro ⟨hP, hrest⟩ before after m hsplit hm
      cases before with
      | nil => rwa [emitted, List.append_nil, ← Option.some.inj hm]
      | cons b before =>
        obtain ⟨rfl, hafter⟩ := List.cons.inj hsplit
        obtain ⟨s'', he', hbefore⟩ := run_cons.mp hm
        obtain rfl := Option.some.inj (he.symm.trans he')
        rw [emitted_cons he, ← List.append_assoc]
        exact (htail (hkeep.mpr hP)).mpr (hrest s' he) before after m hafter hbefore

variable (out) in
/-- **Exactness rule for one run**, by its own events. -/
theorem always_iff_along_mem {s t : σ} (ws : List ω) {es : List ε}
    (hI : ∀ s ws s', ∀ e ∈ es, I s ws → step s e = some s' → I s' (ws ++ out s e))
    (hG : ∀ s ws s', ∀ e ∈ es, I s ws → G s ws → step s e = some s' →
      (G s' (ws ++ out s e) ↔ P s e))
    (hs : I s ws) (hg : G s ws) (h : run step s es = some t) :
    (∀ before after m, es = before ++ after → run step s before = some m →
        G m (ws ++ emitted step out s before)) ↔ Along step P s es :=
  always_iff_along_of out (Q := fun _ e => e ∈ es) ws (fun s ws e s' hs he => hI s ws s' e he hs)
    (fun s ws e s' hs hg he => hG s ws s' e he hs hg) hs hg (along_of_mem fun _ he _ => he) h

variable (out) in
/-- **Exactness rule.** Where a step keeps `G` exactly if it meets `P`, a run keeps `G` all along
exactly if all its steps meet `P`. -/
theorem always_iff_along
    (hI : ∀ s ws e s', I s ws → step s e = some s' → I s' (ws ++ out s e))
    (hG : ∀ s ws e s', I s ws → G s ws → step s e = some s' → (G s' (ws ++ out s e) ↔ P s e))
    {s t : σ} (ws : List ω) {es : List ε} (hs : I s ws) (hg : G s ws)
    (h : run step s es = some t) :
    (∀ before after m, es = before ++ after → run step s before = some m →
        G m (ws ++ emitted step out s before)) ↔ Along step P s es :=
  always_iff_along_mem out ws (fun s ws s' e _ => hI s ws e s') (fun s ws s' e _ => hG s ws e s') hs
    hg h

end Emitted

/-- **Exactness rule** for what is said of states alone, in some runs. -/
theorem inv_iff_along_of {I G : σ → Prop} {P Q : σ → ε → Prop} {s t : σ} {es : List ε}
    (hI : ∀ s e s', I s → Q s e → step s e = some s' → I s')
    (hG : ∀ s e s', I s → G s → Q s e → step s e = some s' → (G s' ↔ P s e))
    (hs : I s) (hg : G s) (hQ : Along step Q s es) (h : run step s es = some t) :
    (∀ before after m, es = before ++ after → run step s before = some m → G m) ↔
      Along step P s es :=
  always_iff_along_of (fun _ _ => ([] : List Unit)) (I := fun s _ => I s) (G := fun s _ => G s) []
    (fun s _ e s' => hI s e s') (fun s _ e s' => hG s e s') hs hg hQ h

/-- **Exactness rule** for what is said of states alone, in one run. -/
theorem inv_iff_along_mem {I G : σ → Prop} {P : σ → ε → Prop} {s t : σ} {es : List ε}
    (hI : ∀ s s', ∀ e ∈ es, I s → step s e = some s' → I s')
    (hG : ∀ s s', ∀ e ∈ es, I s → G s → step s e = some s' → (G s' ↔ P s e))
    (hs : I s) (hg : G s) (h : run step s es = some t) :
    (∀ before after m, es = before ++ after → run step s before = some m → G m) ↔
      Along step P s es :=
  always_iff_along_mem (fun _ _ => ([] : List Unit)) (I := fun s _ => I s) (G := fun s _ => G s) []
    (fun s _ s' => hI s s') (fun s _ s' => hG s s') hs hg h

/-- **Exactness rule** for what is said of states alone. -/
theorem inv_iff_along {I G : σ → Prop} {P : σ → ε → Prop}
    (hI : ∀ s e s', I s → step s e = some s' → I s')
    (hG : ∀ s e s', I s → G s → step s e = some s' → (G s' ↔ P s e)) {s t : σ} {es : List ε}
    (hs : I s) (hg : G s) (h : run step s es = some t) :
    (∀ before after m, es = before ++ after → run step s before = some m → G m) ↔
      Along step P s es :=
  inv_iff_along_mem (fun s s' e _ => hI s e s') (fun s s' e _ => hG s e s') hs hg h

/-- **Exactness rule for a run's end**, where there is no way back: a step that does not meet `P`
leads to what no later step leads out of. -/
theorem end_iff_along {I G B : σ → Prop} {P Q : σ → ε → Prop} {s t : σ} {es : List ε}
    (hI : ∀ s e s', I s → Q s e → step s e = some s' → I s')
    (hG : ∀ s e s', I s → G s → Q s e → step s e = some s' → P s e → G s')
    (hbreak : ∀ s e s', I s → G s → Q s e → step s e = some s' → ¬ P s e → B s')
    (hstay : ∀ s e s', I s → B s → Q s e → step s e = some s' → B s')
    (hnot : ∀ s, B s → ¬ G s) (hs : I s) (hg : G s) (hQ : Along step Q s es)
    (h : run step s es = some t) : G t ↔ Along step P s es := by
  induction es generalizing s with
  | nil => exact iff_of_true (Option.some.inj h ▸ hg) trivial
  | cons e es ih =>
    obtain ⟨s', he, hes⟩ := run_cons.mp h
    have hs' := hI s e s' hs hQ.1 he
    by_cases hP : P s e
    · rw [ih hs' (hG s e s' hs hg hQ.1 he hP) (hQ.2 s' he) hes, along_cons, he, Option.elim_some]
      exact (and_iff_right hP).symm
    · have hbroken : I t ∧ B t := by
        refine run_inv_along (I := fun s => I s ∧ B s) (P := Q) ?_
          ⟨hs', hbreak s e s' hs hg hQ.1 he hP⟩ (hQ.2 s' he) hes
        intro u d u' hu hd hstep
        exact ⟨hI u d u' hu.1 hd hstep, hstay u d u' hu.1 hu.2 hd hstep⟩
      exact iff_of_false (hnot t hbroken.2) fun halong => hP halong.1

/-! ## Systems that keep what they have emitted -/

section Recording

variable {out : σ → ε → List ω}

/-- A step, with what has been emitted so far. -/
def recording (step : σ → ε → Option σ) (out : σ → ε → List ω) (p : σ × List ω) (e : ε) :
    Option (σ × List ω) :=
  (step p.1 e).map fun s' => (s', p.2 ++ out p.1 e)

theorem recording_eq_some {p q : σ × List ω} {e : ε} :
    recording step out p e = some q ↔ step p.1 e = some q.1 ∧ q.2 = p.2 ++ out p.1 e := by
  unfold recording
  rw [Option.map_eq_some_iff]
  constructor
  · rintro ⟨s', hs', rfl⟩
    exact ⟨hs', rfl⟩
  · rintro ⟨hs', hq⟩
    exact ⟨q.1, hs', Prod.ext rfl hq.symm⟩

end Recording

/-- A system whose events stand for those of another runs as that one does. -/
theorem run_map {δ : Type} (f : δ → ε) (s : σ) (es : List δ) :
    run (fun s e => step s (f e)) s es = run step s (es.map f) := by
  induction es generalizing s with
  | nil => rfl
  | cons e es ih =>
    rw [List.map_cons, run, run]
    simp only [ih]

theorem emitted_map {δ : Type} {out : σ → ε → List ω} (f : δ → ε) (s : σ) (es : List δ) :
    emitted (fun s e => step s (f e)) (fun s e => out s (f e)) s es =
      emitted step out s (es.map f) := by
  induction es generalizing s with
  | nil => rfl
  | cons e es ih =>
    rw [List.map_cons, emitted, emitted]
    simp only [ih]

/-- **Two systems run alike** if they go on alike with every event: either both do, or neither. -/
theorem run_rel {τ δ : Type} {step' : τ → δ → Option τ} {R : σ → τ → Prop} (f : δ → ε) {es : List δ}
    (hstep : ∀ s t, ∀ e ∈ es, R s t → Option.Rel R (step s (f e)) (step' t e)) {s : σ} {t : τ}
    (h : R s t) : Option.Rel R (run step s (es.map f)) (run step' t es) := by
  induction es generalizing s t with
  | nil => exact .some h
  | cons e es ih =>
    rw [List.map_cons, run, run]
    have hnext := hstep s t e List.mem_cons_self h
    generalize step s (f e) = next at hnext
    generalize step' t e = next' at hnext
    cases hnext with
    | none => exact .none
    | some hnext => exact ih (fun s t d hd => hstep s t d (List.mem_cons_of_mem e hd)) hnext

/-- **A table after a write** holds what was written, or what it held. -/
theorem update_eq_some {ι α : Type} [DecidableEq ι] {table : ι → Option α} {i j : ι}
    {entry : Option α} {a : α} (h : Function.update table i entry j = some a) :
    (j = i ∧ entry = some a) ∨ (j ≠ i ∧ table j = some a) := by
  by_cases hji : j = i
  · rw [hji, Function.update_self] at h
    exact .inl ⟨hji, h⟩
  · rw [Function.update_of_ne hji] at h
    exact .inr ⟨hji, h⟩

end Llamenos.Lib.Runs

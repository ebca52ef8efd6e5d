import Llamenos.Lib.Runs

/-!
# Writes from a snapshot

Calls on one value, each with an update. A call reads the value, and later writes what its update
makes of what it has read, whatever the value is by then; an update may also refuse what it is
given. The calls overlap as they like.

Results:
* `kept_iff`: **the value is what the updates make of it, one after the other**, exactly if each
  call writes what its update makes of the value that it finds when it writes.
* `kept_mono`: what is said of updates one after the other.
-/

namespace Llamenos.Lib.SnapshotWrites

variable {ν υ : Type}

inductive Call (ν υ : Type) where
  | read (update : υ) (snapshot : ν)
  | written (value : ν)
  | refused

structure State (ν υ : Type) where
  value : ν
  calls : Nat → Option (Call ν υ)

inductive Event (υ : Type) where
  | read (c : Nat) (update : υ)
  | write (c : Nat)

def start (initial : ν) : State ν υ := ⟨initial, fun _ => none⟩

section Step

variable (apply : υ → ν → Option ν)

def step (s : State ν υ) : Event υ → Option (State ν υ)
  | .read c update =>
    match s.calls c with
    | none => some { s with calls := Function.update s.calls c (some (.read update s.value)) }
    | some _ => none
  | .write c =>
    match s.calls c with
    | some (.read update snapshot) =>
      match apply update snapshot with
      | some value => some ⟨value, Function.update s.calls c (some (.written value))⟩
      | none => some { s with calls := Function.update s.calls c (some .refused) }
    | _ => none

/-- The updates, as they are written. -/
def out (s : State ν υ) : Event υ → List υ
  | .read _ _ => []
  | .write c =>
    match s.calls c with
    | some (.read update snapshot) => (apply update snapshot).toList.map fun _ => update
    | _ => []

abbrev Recorded (ν υ : Type) := State ν υ × List υ

def recorded : Recorded ν υ → Event υ → Option (Recorded ν υ) :=
  Runs.recording (step apply) (out apply)

/-- What the updates make of a value, one after the other. -/
def applyAll (initial : ν) (updates : List υ) : Option ν :=
  updates.foldlM (fun value update => apply update value) initial

/-- No update is lost. -/
def Kept (initial : ν) (p : Recorded ν υ) : Prop := applyAll apply initial p.2 = some p.1.value

/-- What a call writes, its update makes of the value as it is. -/
def Fresh (s : State ν υ) : Event υ → Prop
  | .read _ _ => True
  | .write c => ∀ update snapshot value, s.calls c = some (.read update snapshot) →
      apply update snapshot = some value → apply update s.value = some value

end Step

variable {apply : υ → ν → Option ν} {initial : ν} {p q : Recorded ν υ} {e : Event υ}

@[simp] theorem applyAll_nil : applyAll apply initial [] = some initial := rfl

theorem applyAll_concat {updates : List υ} {update : υ} :
    applyAll apply initial (updates ++ [update]) =
      (applyAll apply initial updates).bind (apply update) := by
  simp [applyAll, List.foldlM_append]

/-- **What is said of updates, one after the other**: what holds at the beginning and is kept by
each holds at the end. -/
theorem kept_mono {I : List υ → ν → Prop} (hnil : I [] initial)
    (hstep : ∀ updates value update value', I updates value → apply update value = some value' →
      I (updates ++ [update]) value') {updates : List υ} {value : ν}
    (h : applyAll apply initial updates = some value) : I updates value := by
  induction updates using List.reverseRecOn generalizing value with
  | nil => exact Option.some.inj h ▸ hnil
  | append_singleton updates update ih =>
    rw [applyAll_concat, Option.bind_eq_some_iff] at h
    obtain ⟨before, hbefore, hupdate⟩ := h
    exact hstep updates before update value (ih hbefore) hupdate

/-- What a step does: it leaves the value, or it writes what an update makes of a snapshot. -/
theorem step_cases (h : recorded apply p e = some q) :
    (q.1.value = p.1.value ∧ q.2 = p.2 ∧ Fresh apply p.1 e) ∨
      ∃ c update snapshot, e = .write c ∧ p.1.calls c = some (.read update snapshot) ∧
        apply update snapshot = some q.1.value ∧ q.2 = p.2 ++ [update] := by
  obtain ⟨hstep, hlog⟩ := Runs.recording_eq_some.mp h
  cases e with
  | read c update =>
    simp only [step] at hstep
    split at hstep
    · rw [← Option.some.inj hstep]
      exact .inl ⟨rfl, by simpa [out] using hlog, trivial⟩
    · cases hstep
  | write c =>
    simp only [step] at hstep
    split at hstep
    next update snapshot hc =>
      rw [out, hc] at hlog
      split at hstep
      next value hvalue =>
        rw [← Option.some.inj hstep]
        exact .inr ⟨c, update, snapshot, rfl, hc, hvalue, by simpa [hvalue] using hlog⟩
      next hnone =>
        rw [← Option.some.inj hstep]
        refine .inl ⟨rfl, by simpa [hnone] using hlog, fun update' snapshot' value hc' hvalue => ?_⟩
        obtain ⟨rfl, rfl⟩ := Call.read.inj (Option.some.inj (hc.symm.trans hc'))
        rw [hnone] at hvalue
        cases hvalue
    next => cases hstep

theorem kept_step (h : recorded apply p e = some q) (hkept : Kept apply initial p) :
    Kept apply initial q ↔ Fresh apply p.1 e := by
  unfold Kept at hkept ⊢
  rcases step_cases h with ⟨hvalue, hlog, hfresh⟩ | ⟨c, update, snapshot, rfl, hc, hvalue, hlog⟩
  · rw [hvalue, hlog]
    exact iff_of_true hkept hfresh
  · rw [hlog, applyAll_concat, hkept, Option.bind_some]
    constructor
    · intro hsame update' snapshot' value hc' hvalue'
      obtain ⟨rfl, rfl⟩ := Call.read.inj (Option.some.inj (hc.symm.trans hc'))
      rw [← hvalue', hvalue, hsame]
    · exact fun hfresh => hfresh update snapshot q.1.value hc hvalue

/-- A call that writes as soon as it has read finds what it has read. -/
theorem fresh_of_read {c : Nat} {update : υ} (h : recorded apply p (.read c update) = some q) :
    Fresh apply q.1 (.write c) := by
  obtain ⟨hstep, -⟩ := Runs.recording_eq_some.mp h
  simp only [step] at hstep
  split at hstep
  · rw [← Option.some.inj hstep]
    intro update' snapshot value hc hvalue
    have hread : some (Call.read update p.1.value) = some (.read update' snapshot) :=
      (Function.update_self c _ p.1.calls).symm.trans hc
    obtain ⟨rfl, rfl⟩ := Call.read.inj (Option.some.inj hread)
    exact hvalue
  · cases hstep

/-- **No update is lost** all along a run exactly if each write is fresh. -/
theorem kept_iff {es : List (Event υ)}
    (h : Runs.run (recorded apply) (start initial, []) es = some q) :
    (∀ before after m, es = before ++ after →
        Runs.run (recorded apply) (start initial, []) before = some m → Kept apply initial m) ↔
      Runs.Along (recorded apply) (fun p => Fresh apply p.1) (start initial, []) es :=
  Runs.inv_iff_along (I := fun _ => True) (fun _ _ _ _ _ => trivial)
    (fun _ _ _ _ hkept hstep => kept_step hstep hkept) trivial applyAll_nil h

end Llamenos.Lib.SnapshotWrites

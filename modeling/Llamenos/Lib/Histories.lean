import Mathlib.Data.List.Induction
import Mathlib.Data.List.Nodup

/-!
# What a history of additions and removals leaves

A key stands if the last change of it was an addition: the set that a history of changes leaves, as
the history tells it. A store of the keys may hold a key more than once, or remove it in other ways;
it is right if it holds the keys that stand.

A history may also be one whose every entry is such as those before it let be (`Lawful`).

Results:
* `standing_nil`: at the beginning no key stands.
* `standing_add`, `standing_remove`: what stands after more changes.
* `lawful_nil`, `lawful_concat`: what one more entry must be.
* `Lawful.nodup`: what each entry must not repeat comes once.
* `since_nil`, `since_concat`: an entry with no other of some kind since, after one more.
* `since_append`, `not_since_append`, `since_of_mem`: the same after several more.
-/

namespace Llamenos.Lib.Histories

variable {κ : Type} [DecidableEq κ]

inductive Change (κ : Type) where
  | add (key : κ)
  | remove (key : κ)
  deriving DecidableEq

def Change.key : Change κ → κ
  | .add key => key
  | .remove key => key

/-- The last change of the key is an addition. -/
def Standing (ws : List (Change κ)) (key : κ) : Prop :=
  (ws.filter fun w => w.key = key).getLast? = some (.add key)

instance (ws : List (Change κ)) (key : κ) : Decidable (Standing ws key) :=
  inferInstanceAs (Decidable (_ = _))

variable {ws : List (Change κ)} {key : κ}

theorem standing_nil : ¬ Standing ([] : List (Change κ)) key := by
  simp [Standing]

theorem standing_concat (w : Change κ) :
    Standing (ws ++ [w]) key ↔ if w.key = key then w = .add key else Standing ws key := by
  unfold Standing
  rw [List.filter_append, List.filter_cons]
  split_ifs with h h'
  · simp
  · simp_all
  · simp_all
  · simp

/-- **Keys are added.** -/
theorem standing_add (keys : List κ) :
    Standing (ws ++ keys.map .add) key ↔ key ∈ keys ∨ Standing ws key := by
  induction keys using List.reverseRecOn with
  | nil => simp
  | append_singleton keys k ih =>
    rw [List.map_append, List.map_singleton, ← List.append_assoc, standing_concat, ih,
      List.mem_append, List.mem_singleton]
    split_ifs with h
    · exact iff_of_true (congrArg Change.add h) (.inl (.inr (Eq.symm h)))
    · simp [show key ≠ k from fun hk => h hk.symm]

/-- **A key is removed.** -/
theorem standing_remove (k : κ) :
    Standing (ws ++ [.remove k]) key ↔ key ≠ k ∧ Standing ws key := by
  rw [standing_concat]
  split_ifs with h
  · exact iff_of_false (fun hadd => by cases hadd) fun hne => hne.1 (Eq.symm h)
  · rw [and_iff_right fun hk : key = k => h hk.symm]

/-! ## Entries that those before them allow -/

section Lawful

variable {ω α : Type} {allowed : List ω → ω → Prop}

/-- Each entry is one that those before it allow. -/
def Lawful (allowed : List ω → ω → Prop) (ws : List ω) : Prop :=
  ∀ before w after, ws = before ++ w :: after → allowed before w

theorem lawful_nil : Lawful allowed [] := by
  intro before w after h
  simp at h

theorem lawful_concat {ws : List ω} {w : ω} :
    Lawful allowed (ws ++ [w]) ↔ Lawful allowed ws ∧ allowed ws w := by
  constructor
  · intro h
    refine ⟨fun before v after hws => h before v (after ++ [w]) ?_, h ws w [] rfl⟩
    simp [hws]
  · rintro ⟨hws, hw⟩ before v after h
    induction after using List.reverseRecOn with
    | nil =>
      obtain ⟨rfl, hlast⟩ := List.append_inj' h rfl
      obtain rfl := List.singleton_inj.mp hlast
      exact hw
    | append_singleton after last _ =>
      rw [← List.cons_append, ← List.append_assoc] at h
      exact hws before v after (List.append_inj' h rfl).1

/-- What is always allowed may come. -/
theorem Lawful.append {ws vs : List ω} (h : Lawful allowed ws)
    (hvs : ∀ v ∈ vs, ∀ before, allowed before v) : Lawful allowed (ws ++ vs) := by
  induction vs using List.reverseRecOn with
  | nil => rwa [List.append_nil]
  | append_singleton vs v ih =>
    rw [← List.append_assoc]
    refine lawful_concat.mpr ⟨ih fun u hu => hvs u (List.mem_append_left _ hu), ?_⟩
    exact hvs v (List.mem_append_right _ List.mem_cons_self) _

/-- **What each entry must not repeat comes once.** -/
theorem Lawful.nodup (f : ω → Option α)
    (hfresh : ∀ before w a, allowed before w → f w = some a → a ∉ before.filterMap f)
    {ws : List ω} (h : Lawful allowed ws) : (ws.filterMap f).Nodup := by
  induction ws using List.reverseRecOn with
  | nil => simp
  | append_singleton ws w ih =>
    obtain ⟨hws, hw⟩ := lawful_concat.mp h
    rw [List.filterMap_append, List.filterMap_cons, List.filterMap_nil]
    cases hf : f w with
    | none => simpa using ih hws
    | some a =>
      refine (ih hws).append (List.nodup_singleton a) fun b hb hlast => ?_
      rw [List.mem_singleton.mp hlast] at hb
      exact hfresh ws w a hw hf hb

end Lawful

/-! ## What has happened since -/

section Since

variable {ω : Type} {p : List ω → ω → Prop} {stops : ω → Prop}

/-- There is an entry as `p` says, of it and of those before it, and none that stops since. -/
def Since (p : List ω → ω → Prop) (stops : ω → Prop) (ws : List ω) : Prop :=
  ∃ before w after, ws = before ++ w :: after ∧ p before w ∧ ∀ v ∈ after, ¬ stops v

theorem since_nil : ¬ Since p stops [] := by
  rintro ⟨before, w, after, h, -⟩
  simp at h

theorem since_concat {ws : List ω} {w : ω} :
    Since p stops (ws ++ [w]) ↔ p ws w ∨ (¬ stops w ∧ Since p stops ws) := by
  constructor
  · rintro ⟨before, v, after, h, hv, hafter⟩
    rcases List.eq_nil_or_concat after with rfl | ⟨rest, last, rfl⟩
    · obtain ⟨rfl, hlast⟩ := List.append_inj' h rfl
      obtain rfl := List.singleton_inj.mp hlast
      exact .inl hv
    · rw [List.concat_eq_append] at h hafter
      rw [← List.cons_append, ← List.append_assoc] at h
      obtain ⟨hws, hlast⟩ := List.append_inj' h rfl
      obtain rfl := List.singleton_inj.mp hlast
      refine .inr ⟨hafter w (by simp), before, v, rest, hws, hv, fun u hu => ?_⟩
      exact hafter u (List.mem_append_left _ hu)
  · rintro (hw | ⟨hstops, before, v, after, rfl, hv, hafter⟩)
    · exact ⟨ws, w, [], rfl, hw, by simp⟩
    · refine ⟨before, v, after ++ [w], by simp, hv, fun u hu => ?_⟩
      rcases List.mem_append.mp hu with hu | hu
      · exact hafter u hu
      · exact List.mem_singleton.mp hu ▸ hstops

/-- **Entries that neither count nor stop.** -/
theorem since_append {ws vs : List ω} (hp : ∀ v ∈ vs, ∀ before, ¬ p before v)
    (hstops : ∀ v ∈ vs, ¬ stops v) : Since p stops (ws ++ vs) ↔ Since p stops ws := by
  induction vs using List.reverseRecOn with
  | nil => rw [List.append_nil]
  | append_singleton vs v ih =>
    have hv : v ∈ vs ++ [v] := List.mem_append_right _ List.mem_cons_self
    rw [← List.append_assoc, since_concat, ih (fun u hu => hp u (List.mem_append_left _ hu))
      fun u hu => hstops u (List.mem_append_left _ hu)]
    exact ⟨fun h => (h.resolve_left (hp v hv _)).2, fun h => .inr ⟨hstops v hv, h⟩⟩

/-- **Entries that stop, and do not count.** -/
theorem not_since_append {ws vs : List ω} (hp : ∀ v ∈ vs, ∀ before, ¬ p before v)
    (hstops : ∃ v ∈ vs, stops v) : ¬ Since p stops (ws ++ vs) := by
  induction vs using List.reverseRecOn with
  | nil =>
    obtain ⟨v, hv, -⟩ := hstops
    cases hv
  | append_singleton vs v ih =>
    rw [← List.append_assoc, since_concat]
    rintro (hcounts | ⟨hnot, hsince⟩)
    · exact hp v (List.mem_append_right _ List.mem_cons_self) _ hcounts
    · refine ih (fun u hu => hp u (List.mem_append_left _ hu)) ?_ hsince
      obtain ⟨u, hu, hustops⟩ := hstops
      rcases List.mem_append.mp hu with hu | hu
      · exact ⟨u, hu, hustops⟩
      · rw [List.mem_singleton.mp hu] at hustops
        exact absurd hustops hnot

/-- **An entry that counts, among others that do not stop.** -/
theorem since_of_mem {ws vs : List ω} {v : ω} (hv : v ∈ vs) (hp : ∀ before, p before v)
    (hstops : ∀ u ∈ vs, ¬ stops u) : Since p stops (ws ++ vs) := by
  obtain ⟨front, back, rfl⟩ := List.append_of_mem hv
  refine ⟨ws ++ front, v, back, by simp, hp _, fun u hu => hstops u ?_⟩
  exact List.mem_append_right _ (List.mem_cons_of_mem v hu)

end Since

end Llamenos.Lib.Histories

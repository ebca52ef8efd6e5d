import Mathlib.Data.List.Nodup

/-!
# Queues that are served in order

Entries have an order, in which they have come. A server takes a queue of them, and serves one after
the other; meanwhile more may come, and entries may be settled in other ways. It serves them in
order if each that comes before one it serves is settled by then.

Results:
* `Serving.start`: a server may take a queue that has all that is not settled.
* `Serving.head`: **the entry that is served next is served in order**.
* `Serving.next`, `Serving.concat`, `Serving.mono`: what keeps the rest in order.
-/

namespace Llamenos.Lib.Fifo

variable {α : Type} {l m : List α} {a b c : α}

/-- `a` comes before `b`. -/
def Before (l : List α) (a b : α) : Prop := [a, b].Sublist l

theorem Before.mem_left (h : Before l a b) : a ∈ l := h.subset List.mem_cons_self

theorem Before.mono (h : Before l a b) (hl : l.Sublist m) : Before m a b := h.trans hl

/-- What has come last is before nothing. -/
theorem Before.of_concat (h : Before (l ++ [c]) a b) (hb : b ≠ c) : Before l a b := by
  obtain ⟨front, back, hab, hfront, hback⟩ := List.sublist_append_iff.mp h
  rcases List.eq_nil_or_concat back with rfl | ⟨back, d, rfl⟩
  · rw [List.append_nil] at hab
    rw [Before, hab]
    exact hfront
  · rw [List.concat_eq_append, ← List.append_assoc] at hab
    have hd : d = b := by
      have hlast := congrArg List.getLast? hab
      simpa using hlast.symm
    have hdc : d ∈ [c] := hback.subset (by simp)
    exact absurd (hd ▸ List.mem_singleton.mp hdc) hb

theorem not_before_head (h : (b :: l).Nodup) : ¬ Before (b :: l) a b := by
  intro hab
  have hb : b ∉ l := (List.nodup_cons.mp h).1
  rcases List.cons_sublist_cons'.mp hab with hl | ⟨-, hl⟩
  · exact hb (hl.subset (List.mem_cons_of_mem a List.mem_cons_self))
  · exact hb (hl.subset List.mem_cons_self)

theorem Before.tail (h : Before (c :: l) a b) (hac : a ≠ c) : Before l a b := by
  rcases List.cons_sublist_cons'.mp h with hl | ⟨rfl, -⟩
  · exact hl
  · exact absurd rfl hac

/-- The order of some of the entries is that of all. -/
theorem Before.restrict (hnodup : m.Nodup) (hl : l.Sublist m) (ha : a ∈ l) (hb : b ∈ l)
    (h : Before m a b) : Before l a b := by
  induction hl with
  | slnil => cases ha
  | @cons l m d hl ih =>
    have hd : a ≠ d := fun had => (List.nodup_cons.mp hnodup).1 (had ▸ hl.subset ha)
    exact ih (List.nodup_cons.mp hnodup).2 ha hb (h.tail hd)
  | @cons_cons l m d hl ih =>
    by_cases hd : a = d
    · subst hd
      rcases List.mem_cons.mp hb with rfl | hb
      · exact absurd h (not_before_head hnodup)
      · exact List.cons_sublist_cons.mpr (List.singleton_sublist.mpr hb)
    · have hrest := h.tail hd
      rcases List.mem_cons.mp hb with rfl | hb
      · exact absurd h (not_before_head hnodup)
      · have ha' := (List.mem_cons.mp ha).resolve_left hd
        exact (ih (List.nodup_cons.mp hnodup).2 ha' hb hrest).mono (List.sublist_cons_self d l)

/-! ## Serving a queue -/

variable {order queue : List α} {settled settled' : α → Prop}

/-- What a server still has to serve: what comes before an entry of it is settled, or is there
before it. -/
structure Serving (order : List α) (settled : α → Prop) (queue : List α) : Prop where
  sublist : queue.Sublist order
  before : ∀ b ∈ queue, ∀ a, Before order a b → settled a ∨ Before queue a b

theorem Serving.start (hnodup : order.Nodup) (hqueue : queue.Sublist order)
    (hall : ∀ a ∈ order, a ∈ queue ∨ settled a) : Serving order settled queue := by
  refine ⟨hqueue, fun b hb a hab => ?_⟩
  rcases hall a hab.mem_left with ha | ha
  · exact .inr (hab.restrict hnodup hqueue ha hb)
  · exact .inl ha

theorem Serving.head (hnodup : order.Nodup) (h : Serving order settled (b :: queue)) :
    ∀ a, Before order a b → settled a := by
  intro a hab
  rcases h.before b List.mem_cons_self a hab with ha | ha
  · exact ha
  · exact absurd ha (not_before_head (h.sublist.nodup hnodup))

theorem Serving.next (h : Serving order settled (b :: queue)) (hb : settled b) :
    Serving order settled queue := by
  refine ⟨(List.sublist_cons_self b queue).trans h.sublist, fun c hc a hac => ?_⟩
  rcases h.before c (List.mem_cons_of_mem b hc) a hac with ha | ha
  · exact .inl ha
  · by_cases hab : a = b
    · exact .inl (hab ▸ hb)
    · exact .inr (ha.tail hab)

theorem Serving.concat (h : Serving order settled queue) (hc : c ∉ order) :
    Serving (order ++ [c]) settled queue := by
  refine ⟨h.sublist.trans (List.sublist_append_left order [c]), fun b hb a hab => ?_⟩
  refine h.before b hb a (hab.of_concat fun hbc => ?_)
  exact hc (hbc ▸ h.sublist.subset hb)

theorem Serving.mono (h : Serving order settled queue) (hsettled : ∀ a, settled a → settled' a) :
    Serving order settled' queue :=
  ⟨h.sublist, fun b hb a hab => (h.before b hb a hab).imp_left (hsettled a)⟩

end Llamenos.Lib.Fifo

import Llamenos.Lib.Runs
import Mathlib.Data.List.Sort
import Mathlib.Data.List.Pairwise

/-!
# The event buffer

`RingBuffer` of `apps/worker/lib/ring-buffer.ts`: items in the order of their push, with a
capacity, a maximum age, and slots reserved for priority items. Every operation first evicts what
is too old.

A run is any sequence of `push`, `since` and `all`, each with its reading of the clock; readings
do not decrease, and an item's timestamp is the reading at its push. So the items are in the order
of their timestamps, and the expired ones are a prefix.

Into a full buffer that holds more reserved items than reserved slots, a non-reserved push finds
the non-reserved items short of their share, evicts nothing, and pushes: the buffer outgrows its
capacity. Everything else asked of a ring buffer holds of every run.

Results:
* `push_cases`: what a push does.
* `run_sublist`, `run_sorted`: the items held are pushed items, in order.
* `step_reserved`: **what reserved items a step leaves in the buffer**.
* `since_exact`: `since` gives the live items from a time on, newest first.
* `ring_buffer_iff`: **a run is a ring buffer's exactly if no push outgrows the capacity**.
-/

namespace Llamenos.Worker.RingBuffer

open Llamenos.Lib

/-! ## The code -/

structure RingBufferOptions (T : Type) where
  capacity : Nat
  maxAgeMs : Int
  reservedSlots : Nat
  isReserved : T → Bool
  getTimestamp : T → Int

variable {T : Type} (o : RingBufferOptions T)

/-- `evictExpired`: the scan from the front, with `Date.now()` at `now`. -/
def evictExpired (now : Int) (items : List T) : List T :=
  items.dropWhile fun item => decide (o.getTimestamp item < now - o.maxAgeMs)

/-- The index of the oldest non-reserved item. -/
def oldestNonReserved (items : List T) : Option Nat :=
  items.findIdx? fun i => !o.isReserved i

def push (now : Int) (items : List T) (item : T) : List T :=
  let items := evictExpired o now items
  if o.capacity ≤ items.length then
    if o.isReserved item then
      match oldestNonReserved o items with
      | some idx => items.eraseIdx idx ++ [item]
      | none => items.tail ++ [item]
    else
      let reservedCount := (items.filter o.isReserved).length
      let nonReservedCapacity := o.capacity - min reservedCount o.reservedSlots
      let nonReservedCount := items.length - reservedCount
      if nonReservedCapacity ≤ nonReservedCount then
        match oldestNonReserved o items with
        | some idx => items.eraseIdx idx ++ [item]
        | none => items
      else items ++ [item]
  else items ++ [item]

/-- `since`: the items left, and the result of the loop from the end. -/
def since (now : Int) (items : List T) (sinceMs : Int) : List T × List T :=
  let items := evictExpired o now items
  (items, items.reverse.filter fun item => decide (sinceMs ≤ o.getTimestamp item))

/-- `all`: the items left are the result. -/
def all (now : Int) (items : List T) : List T := evictExpired o now items

/-! ## Runs -/

/-- A call, with its reading of the clock. -/
inductive Call (T : Type) where
  | push (now : Int) (item : T)
  | since (now : Int) (sinceMs : Int)
  | all (now : Int)

namespace Call

/-- The reading of the clock. -/
def now : Call T → Int
  | push now _ => now
  | since now _ => now
  | all now => now

/-- The item pushed. -/
def item? : Call T → Option T
  | push _ item => some item
  | since _ _ => none
  | all _ => none

end Call

/-- The items, and the last reading of the clock. -/
structure State (T : Type) where
  items : List T
  clock : Int

/-- A call, no earlier than the one before; an item is stamped with the time of its push. -/
def step (s : State T) : Call T → Option (State T)
  | .push now item =>
    if s.clock ≤ now ∧ o.getTimestamp item = now then some ⟨push o now s.items item, now⟩ else none
  | .since now sinceMs =>
    if s.clock ≤ now then some ⟨(since o now s.items sinceMs).1, now⟩ else none
  | .all now => if s.clock ≤ now then some ⟨all o now s.items, now⟩ else none

/-- The items pushed, in order. -/
def pushed (calls : List (Call T)) : List T := calls.filterMap Call.item?

/-- An item is not older than the maximum age. -/
def live (now : Int) (item : T) : Bool := decide (now - o.maxAgeMs ≤ o.getTimestamp item)

/-- The items are in the order of their timestamps, all in the past. -/
def Sorted (s : State T) : Prop :=
  s.items.Pairwise (fun a b => o.getTimestamp a ≤ o.getTimestamp b) ∧
    ∀ i ∈ s.items, o.getTimestamp i ≤ s.clock

/-- The reserved items, in order. -/
def reserved (items : List T) : List T := items.filter o.isReserved

/-- More reserved items than slots, and fewer others than the slots leave. -/
def Overfull (items : List T) : Prop :=
  o.reservedSlots < (reserved o items).length ∧
    items.length - (reserved o items).length < o.capacity - o.reservedSlots

variable {o}

/-! ## One operation -/
variable {items : List T}

theorem eraseIdx_oldest {idx : Nat} (h : oldestNonReserved o items = some idx) :
    items.eraseIdx idx = items.eraseP fun i => !o.isReserved i := by
  rw [List.eraseP_eq_eraseIdx]
  unfold oldestNonReserved at h
  rw [h]

theorem oldestNonReserved_eq_none :
    oldestNonReserved o items = none ↔ ∀ i ∈ items, o.isReserved i = true := by
  simp [oldestNonReserved]

/-- In a full buffer, the non-reserved items are short of their share only if it is overfull. -/
theorem short_iff_overfull (hfull : o.capacity ≤ items.length) :
    ¬ o.capacity - min (items.filter o.isReserved).length o.reservedSlots ≤
      items.length - (items.filter o.isReserved).length ↔ Overfull o items := by
  have hle : (items.filter o.isReserved).length ≤ items.length := List.length_filter_le _ _
  unfold Overfull reserved
  by_cases hslots : o.reservedSlots < (items.filter o.isReserved).length
  · rw [min_eq_right hslots.le]
    omega
  · rw [min_eq_left (not_lt.mp hslots)]
    omega

/-- **What a push does** to the items that are not expired. -/
theorem push_cases (now : Int) (items : List T) (item : T) :
    let items' := evictExpired o now items
    (items'.length < o.capacity ∧ push o now items item = items' ++ [item]) ∨
    (o.capacity ≤ items'.length ∧ o.isReserved item = false ∧ Overfull o items' ∧
      push o now items item = items' ++ [item]) ∨
    (o.capacity ≤ items'.length ∧ (o.isReserved item = true ∨ ¬ Overfull o items') ∧
      (∃ i ∈ items', o.isReserved i = false) ∧
      push o now items item = (items'.eraseP fun i => !o.isReserved i) ++ [item]) ∨
    (o.capacity ≤ items'.length ∧ o.isReserved item = true ∧
      (∀ i ∈ items', o.isReserved i = true) ∧ push o now items item = items'.tail ++ [item]) ∨
    (o.capacity ≤ items'.length ∧ o.isReserved item = false ∧ ¬ Overfull o items' ∧
      (∀ i ∈ items', o.isReserved i = true) ∧ push o now items item = items') := by
  intro items'
  by_cases hfull : o.capacity ≤ items'.length
  · right
    cases hold : oldestNonReserved o items' with
    | some idx =>
      have hsome : ∃ i ∈ items', o.isReserved i = false := by
        have hne : oldestNonReserved o items' ≠ none := by simp [hold]
        rw [Ne, oldestNonReserved_eq_none] at hne
        simpa using hne
      by_cases hitem : o.isReserved item = true
      · refine .inr (.inl ⟨hfull, .inl hitem, hsome, ?_⟩)
        simp only [push, items', hfull, hitem, if_true, hold, ← eraseIdx_oldest hold]
      · have hfalse : o.isReserved item = false := by simpa using hitem
        by_cases hover : Overfull o items'
        · refine .inl ⟨hfull, hfalse, hover, ?_⟩
          have hshort := (short_iff_overfull hfull).mpr hover
          simp only [push, items'] at hshort ⊢
          rw [if_pos hfull, if_neg hitem, if_neg hshort]
        · refine .inr (.inl ⟨hfull, .inr hover, hsome, ?_⟩)
          have hshare := not_not.mp (mt (short_iff_overfull hfull).mp hover)
          simp only [push, items'] at hshare ⊢
          rw [if_pos hfull, if_neg hitem, if_pos hshare]
          simp only [items', hold, ← eraseIdx_oldest hold]
    | none =>
      have hall := oldestNonReserved_eq_none.mp hold
      by_cases hitem : o.isReserved item = true
      · refine .inr (.inr (.inl ⟨hfull, hitem, hall, ?_⟩))
        simp only [push, items', hfull, hitem, if_true, hold]
      · have hfalse : o.isReserved item = false := by simpa using hitem
        by_cases hover : Overfull o items'
        · refine .inl ⟨hfull, hfalse, hover, ?_⟩
          have hshort := (short_iff_overfull hfull).mpr hover
          simp only [push, items'] at hshort ⊢
          rw [if_pos hfull, if_neg hitem, if_neg hshort]
        · refine .inr (.inr (.inr ⟨hfull, hfalse, hover, hall, ?_⟩))
          have hshare := not_not.mp (mt (short_iff_overfull hfull).mp hover)
          simp only [push, items'] at hshare ⊢
          rw [if_pos hfull, if_neg hitem, if_pos hshare]
          simp only [items', hold]
  · exact .inl ⟨not_le.mp hfull, if_neg hfull⟩

/-- A push keeps a subsequence of the items and the one pushed, in order. -/
theorem push_sublist (now : Int) (items : List T) (item : T) :
    (push o now items item).Sublist (evictExpired o now items ++ [item]) := by
  rcases push_cases (o := o) now items item with
    ⟨-, h⟩ | ⟨-, -, -, h⟩ | ⟨-, -, -, h⟩ | ⟨-, -, -, h⟩ | ⟨-, -, -, -, h⟩
  · rw [h]
  · rw [h]
  · rw [h]
    exact List.eraseP_sublist.append (List.Sublist.refl _)
  · rw [h]
    exact (List.tail_sublist _).append (List.Sublist.refl _)
  · rw [h]
    exact List.sublist_append_left _ _

theorem evictExpired_sublist (now : Int) (items : List T) :
    (evictExpired o now items).Sublist items := List.dropWhile_sublist _

/-- In the order of their timestamps, the items that the scan leaves are the live ones. -/
theorem evictExpired_eq_filter (now : Int)
    (h : items.Pairwise fun a b => o.getTimestamp a ≤ o.getTimestamp b) :
    evictExpired o now items = items.filter (live o now) := by
  induction items with
  | nil => rfl
  | cons i items ih =>
    obtain ⟨hhead, htail⟩ := List.pairwise_cons.mp h
    unfold evictExpired
    by_cases hexp : o.getTimestamp i < now - o.maxAgeMs
    · have hdead : ¬ live o now i = true := fun h => not_le.mpr hexp (of_decide_eq_true h)
      rw [List.dropWhile_cons_of_pos (by exact decide_eq_true hexp), List.filter_cons_of_neg hdead]
      exact ih htail
    · have hlive : ∀ j ∈ i :: items, live o now j = true := by
        intro j hj
        rcases List.mem_cons.mp hj with rfl | hj
        · exact decide_eq_true (not_lt.mp hexp)
        · have hij := hhead j hj
          simp only [live, decide_eq_true_eq]
          omega
      rw [List.dropWhile_cons_of_neg (by exact decide_eq_true_iff.not.mpr hexp),
        List.filter_eq_self.mpr hlive]

/-- **`since` gives the live items from a time on, newest first.** -/
theorem since_exact {s : State T} (hs : Sorted o s) (now sinceMs : Int) :
    (since o now s.items sinceMs).2 = (s.items.filter fun i =>
      live o now i && decide (sinceMs ≤ o.getTimestamp i)).reverse := by
  show (evictExpired o now s.items).reverse.filter _ = _
  rw [evictExpired_eq_filter now hs.1, ← List.filter_reverse, List.filter_filter,
    List.filter_reverse]
  congr 2
  funext i
  exact Bool.and_comm _ _

/-! ## Steps and runs -/

variable {s s' : State T}

/-- What a call leaves is a subsequence of the items and the one pushed. -/
theorem step_sublist {call : Call T} (h : step o s call = some s') :
    s'.items.Sublist (s.items ++ pushed [call]) ∧ s'.clock = call.now ∧ s.clock ≤ call.now ∧
      ∀ i ∈ pushed [call], o.getTimestamp i = call.now := by
  cases call with
  | push now item =>
    obtain ⟨⟨hclock, hstamp⟩, h⟩ := Option.ite_none_right_eq_some.mp h
    obtain rfl := Option.some.inj h
    refine ⟨(push_sublist now s.items item).trans ?_, rfl, hclock, ?_⟩
    · exact (evictExpired_sublist now s.items).append (List.Sublist.refl _)
    · intro i hi
      obtain rfl := List.mem_singleton.mp hi
      exact hstamp
  | since now sinceMs =>
    obtain ⟨hclock, h⟩ := Option.ite_none_right_eq_some.mp h
    obtain rfl := Option.some.inj h
    refine ⟨?_, rfl, hclock, fun i hi => by cases hi⟩
    exact (evictExpired_sublist now s.items).trans (List.sublist_append_left _ _)
  | all now =>
    obtain ⟨hclock, h⟩ := Option.ite_none_right_eq_some.mp h
    obtain rfl := Option.some.inj h
    refine ⟨?_, rfl, hclock, fun i hi => by cases hi⟩
    exact (evictExpired_sublist now s.items).trans (List.sublist_append_left _ _)

theorem step_sorted {call : Call T} (hs : Sorted o s)
    (h : step o s call = some s') : Sorted o s' := by
  obtain ⟨hsub, hclock, hle, hstamp⟩ := step_sublist h
  have hpast : ∀ i ∈ s.items ++ pushed [call], o.getTimestamp i ≤ call.now := by
    intro i hi
    rcases List.mem_append.mp hi with hi | hi
    · exact (hs.2 i hi).trans hle
    · exact (hstamp i hi).le
  refine ⟨List.Pairwise.sublist hsub ?_, fun i hi => hclock ▸ hpast i (hsub.subset hi)⟩
  refine List.pairwise_append.mpr ⟨hs.1, ?_, fun a ha b hb => ?_⟩
  · refine List.Pairwise.imp_of_mem (fun {a b} ha hb _ => ?_)
      (List.pairwise_of_forall (R := fun _ _ => True) fun _ _ => trivial)
    exact ((hstamp a ha).trans (hstamp b hb).symm).le
  · rw [hstamp b hb]
    exact hpast a (List.mem_append_left _ ha)

/-- The items are in the order of their timestamps in every state reached. -/
theorem run_sorted {start : Int} {calls : List (Call T)} {s : State T}
    (h : Runs.run (step o) ⟨[], start⟩ calls = some s) : Sorted o s :=
  Runs.run_inv (I := Sorted o) (fun _ _ _ hs h => step_sorted hs h)
    ⟨List.Pairwise.nil, fun _ hi => by cases hi⟩ h

theorem pushed_append (calls calls' : List (Call T)) :
    pushed (calls ++ calls') = pushed calls ++ pushed calls' := List.filterMap_append

/-- **The items held are a subsequence of those pushed.** -/
theorem run_sublist {s t : State T} {calls : List (Call T)}
    (h : Runs.run (step o) s calls = some t) : t.items.Sublist (s.items ++ pushed calls) := by
  induction calls generalizing s with
  | nil =>
    obtain rfl := Option.some.inj h
    exact List.sublist_append_left _ _
  | cons call calls ih =>
    obtain ⟨s', hcall, hcalls⟩ := Runs.run_cons.mp h
    have hpushed : pushed (call :: calls) = pushed [call] ++ pushed calls :=
      pushed_append [call] calls
    rw [hpushed, ← List.append_assoc]
    exact (ih hcalls).trans ((step_sublist hcall).1.append (List.Sublist.refl _))

/-! ## Reserved items -/

theorem reserved_append (items items' : List T) :
    reserved o (items ++ items') = reserved o items ++ reserved o items' :=
  List.filter_append _ _

/-- Evicting a non-reserved item keeps every reserved one. -/
theorem reserved_eraseP (items : List T) :
    reserved o (items.eraseP fun i => !o.isReserved i) = reserved o items := by
  induction items with
  | nil => rfl
  | cons i items ih =>
    by_cases hi : o.isReserved i = true
    · rw [List.eraseP_cons_of_neg (by simp [hi])]
      simp only [reserved, List.filter_cons, hi, if_true] at ih ⊢
      rw [ih]
    · rw [List.eraseP_cons_of_pos (by simpa using hi)]
      simp only [reserved, List.filter_cons, hi, if_false, Bool.false_eq_true]

theorem reserved_evictExpired {s : State T} (hs : Sorted o s) (now : Int) :
    reserved o (evictExpired o now s.items) = (reserved o s.items).filter (live o now) := by
  rw [evictExpired_eq_filter now hs.1]
  simp only [reserved, List.filter_filter, Bool.and_comm]

/-- A push into a buffer that holds only reserved items, by a reserved item. -/
def PushedOut (o : RingBufferOptions T) (s : State T) : Call T → Prop
  | .push now item =>
    o.isReserved item = true ∧ ∀ i ∈ s.items, live o now i = true → o.isReserved i = true
  | .since _ _ | .all _ => False

/-- **A step leaves the reserved items that are live and adds the one pushed**, unless a reserved
item is pushed into a buffer of reserved items only. -/
theorem step_reserved {call : Call T} (hs : Sorted o s)
    (h : step o s call = some s') :
    reserved o s'.items =
        (reserved o s.items).filter (live o call.now) ++ reserved o (pushed [call]) ∨
      PushedOut o s call := by
  cases call with
  | push now item =>
    obtain ⟨-, h⟩ := Option.ite_none_right_eq_some.mp h
    obtain rfl := Option.some.inj h
    have hlive := reserved_evictExpired hs now
    rcases push_cases (o := o) now s.items item with
      ⟨-, h⟩ | ⟨-, -, -, h⟩ | ⟨-, -, -, h⟩ | ⟨-, hitem, hall, -⟩ | ⟨-, hitem, -, -, h⟩
    · left
      rw [h, reserved_append, hlive]
      rfl
    · left
      rw [h, reserved_append, hlive]
      rfl
    · left
      rw [h, reserved_append, reserved_eraseP, hlive]
      rfl
    · right
      refine ⟨hitem, fun i hi hlv => hall i ?_⟩
      rw [evictExpired_eq_filter now hs.1]
      exact List.mem_filter.mpr ⟨hi, hlv⟩
    · left
      have hnone : reserved o (pushed [Call.push now item]) = [] :=
        List.filter_eq_nil_iff.mpr fun i hi => by
          obtain rfl := List.mem_singleton.mp hi
          simp [hitem]
      rw [h, hlive, hnone, List.append_nil]
      rfl
  | since now sinceMs =>
    obtain ⟨-, h⟩ := Option.ite_none_right_eq_some.mp h
    obtain rfl := Option.some.inj h
    exact .inl ((reserved_evictExpired hs now).trans (List.append_nil _).symm)
  | all now =>
    obtain ⟨-, h⟩ := Option.ite_none_right_eq_some.mp h
    obtain rfl := Option.some.inj h
    exact .inl ((reserved_evictExpired hs now).trans (List.append_nil _).symm)

/-- **A non-reserved push displaces no reserved item.** -/
theorem step_kept (hs : Sorted o s) {now : Int} {item : T}
    (hitem : o.isReserved item = false) (h : step o s (.push now item) = some s') :
    reserved o s'.items = (reserved o s.items).filter (live o now) := by
  rcases step_reserved hs h with hres | hout
  · rw [hres]
    simp [pushed, Call.item?, reserved, Call.now, hitem]
  · exact absurd hout.1 (by simp [hitem])

/-! ## The capacity -/

/-- A non-reserved push does not find the live items at capacity with more reserved ones than
slots, and no reserved item is pushed into a buffer of capacity 0. -/
def Fits (o : RingBufferOptions T) (s : State T) : Call T → Prop
  | .push now item =>
    if o.isReserved item then o.capacity ≠ 0
    else ¬ (o.capacity ≤ (s.items.filter (live o now)).length ∧
      o.reservedSlots < (reserved o (s.items.filter (live o now))).length)
  | .since _ _ | .all _ => True

instance (s : State T) (call : Call T) : Decidable (Fits o s call) := by
  cases call <;> (unfold Fits; infer_instance)

/-- **A push outgrows the capacity exactly if it does not fit.** -/
theorem push_length_iff (hslots : o.reservedSlots ≤ o.capacity) {s : State T} (hs : Sorted o s)
    (hlen : s.items.length ≤ o.capacity) (now : Int) (item : T) :
    (push o now s.items item).length ≤ o.capacity ↔ Fits o s (.push now item) := by
  have hevict := evictExpired_eq_filter now hs.1
  have hle : (evictExpired o now s.items).length ≤ o.capacity :=
    (evictExpired_sublist now s.items).length_le.trans hlen
  have hres : (reserved o (evictExpired o now s.items)).length ≤
      (evictExpired o now s.items).length := List.length_filter_le _ _
  simp only [Fits, ← hevict]
  rcases push_cases (o := o) now s.items item with
    ⟨hlt, h⟩ | ⟨hfull, hitem, hover, h⟩ | ⟨hfull, hfits, hsome, h⟩ | ⟨hfull, hitem, -, h⟩ |
      ⟨hfull, hitem, hfits, -, h⟩
  · rw [h, List.length_append, List.length_singleton]
    refine ⟨fun _ => ?_, fun _ => hlt⟩
    split
    · omega
    · exact fun h => absurd h.1 (not_le.mpr hlt)
  · rw [h, List.length_append, List.length_singleton, if_neg (by simp [hitem])]
    exact ⟨fun h => by omega, fun h => absurd ⟨hfull, hover.1⟩ h⟩
  · obtain ⟨i, hi, hres'⟩ := hsome
    have hpos : 0 < (evictExpired o now s.items).length := List.length_pos_of_mem hi
    rw [h, List.length_append, List.length_singleton,
      List.length_eraseP_of_mem hi (by simp [hres'])]
    refine ⟨fun _ => ?_, fun _ => by omega⟩
    split
    · omega
    · rename_i hitem
      rcases hfits with hfits | hfits
      · exact absurd hfits hitem
      · refine fun hboth => hfits ⟨hboth.2, ?_⟩
        have := hboth.2
        omega
  · rw [h, List.length_append, List.length_singleton, List.length_tail, if_pos hitem]
    omega
  · rw [h, if_neg (by simp [hitem])]
    refine ⟨fun _ hboth => hfits ⟨hboth.2, ?_⟩, fun _ => hle⟩
    have := hboth.2
    omega

/-- What a call leaves is within the capacity exactly if the call fits. -/
theorem step_length_iff (hslots : o.reservedSlots ≤ o.capacity) (hs : Sorted o s)
    (hlen : s.items.length ≤ o.capacity) {call : Call T} (h : step o s call = some s') :
    s'.items.length ≤ o.capacity ↔ Fits o s call := by
  cases call with
  | push now item =>
    obtain ⟨-, h⟩ := Option.ite_none_right_eq_some.mp h
    obtain rfl := Option.some.inj h
    exact push_length_iff hslots hs hlen now item
  | since now sinceMs =>
    obtain ⟨-, h⟩ := Option.ite_none_right_eq_some.mp h
    obtain rfl := Option.some.inj h
    exact iff_of_true ((evictExpired_sublist now s.items).length_le.trans hlen) trivial
  | all now =>
    obtain ⟨-, h⟩ := Option.ite_none_right_eq_some.mp h
    obtain rfl := Option.some.inj h
    exact iff_of_true ((evictExpired_sublist now s.items).length_le.trans hlen) trivial

/-- **The capacity is never exceeded exactly if every push fits.** -/
theorem retained_iff (hslots : o.reservedSlots ≤ o.capacity) {start : Int} {calls : List (Call T)}
    {t : State T} (hrun : Runs.run (step o) ⟨[], start⟩ calls = some t) :
    (∀ before after s, calls = before ++ after → Runs.run (step o) ⟨[], start⟩ before = some s →
        s.items.length ≤ o.capacity) ↔ Runs.Along (step o) (Fits o) ⟨[], start⟩ calls := by
  refine Runs.inv_iff_along (I := Sorted o) (G := fun s => s.items.length ≤ o.capacity) ?_ ?_
    ⟨List.Pairwise.nil, fun _ hi => by cases hi⟩ (Nat.zero_le _) hrun
  · exact fun s call s' hs hcall => step_sorted hs hcall
  · exact fun s call s' hs hlen hcall => step_length_iff hslots hs hlen hcall

/-- **A ring buffer's run.** It never holds more than the capacity; it holds a subsequence of what
was pushed; a non-reserved push displaces no reserved item, and a reserved item leaves only by its
age or by `PushedOut`; and `since` gives the live items from a time on, newest first. -/
structure RingRun (o : RingBufferOptions T) (start : Int) (calls : List (Call T)) : Prop where
  bounded : ∀ before after s, calls = before ++ after →
    Runs.run (step o) ⟨[], start⟩ before = some s → s.items.length ≤ o.capacity
  ordered : ∀ before after s, calls = before ++ after →
    Runs.run (step o) ⟨[], start⟩ before = some s → s.items.Sublist (pushed before)
  kept : Runs.Along (step o) (fun s call => ∀ now item s', call = .push now item →
    o.isReserved item = false → step o s call = some s' →
      reserved o s'.items = (reserved o s.items).filter (live o now)) ⟨[], start⟩ calls
  leaves : Runs.Along (step o) (fun s call => ∀ s', step o s call = some s' →
    reserved o s'.items =
        (reserved o s.items).filter (live o call.now) ++ reserved o (pushed [call]) ∨
      PushedOut o s call) ⟨[], start⟩ calls
  exact : Runs.Along (step o) (fun s call => ∀ now sinceMs, call = .since now sinceMs →
    (since o now s.items sinceMs).2 = (s.items.filter fun i =>
      live o now i && decide (sinceMs ≤ o.getTimestamp i)).reverse) ⟨[], start⟩ calls

/-- **A run is a ring buffer's exactly if every push fits.** -/
theorem ring_buffer_iff (hslots : o.reservedSlots ≤ o.capacity) {start : Int}
    {calls : List (Call T)} {t : State T} (hrun : Runs.run (step o) ⟨[], start⟩ calls = some t) :
    RingRun o start calls ↔ Runs.Along (step o) (Fits o) ⟨[], start⟩ calls := by
  constructor
  · intro h
    exact (retained_iff hslots hrun).mp h.bounded
  · intro hfits
    have hsorted : Runs.Along (step o) (fun s _ => Sorted o s) ⟨[], start⟩ calls :=
      Runs.along_iff_split.mpr fun before call after s _ hbefore => run_sorted hbefore
    constructor
    · exact (retained_iff hslots hrun).mpr hfits
    · intro before after s _ hbefore
      simpa using run_sublist hbefore
    · exact hsorted.mono fun s call hs now item s' hcall hitem h => by
        subst hcall
        exact step_kept hs hitem h
    · exact hsorted.mono fun s call hs s' h => step_reserved hs h
    · exact hsorted.mono fun s call hs now sinceMs _ => since_exact hs now sinceMs

/-! ## A run that outgrows the capacity -/

/-- Two places, one of them reserved; an item is its priority and its timestamp. -/
def twoPlaces : RingBufferOptions (Bool × Int) where
  capacity := 2
  maxAgeMs := 1000
  reservedSlots := 1
  isReserved := Prod.fst
  getTimestamp := Prod.snd

/-- Two reserved items fill the buffer, and another one follows. -/
def floodCalls : List (Call (Bool × Int)) :=
  [.push 1 (true, 1), .push 2 (true, 2), .push 3 (false, 3)]

theorem flood_outgrows : twoPlaces.reservedSlots ≤ twoPlaces.capacity ∧
    Runs.run (step twoPlaces) ⟨[], 0⟩ floodCalls =
      some ⟨[(true, 1), (true, 2), (false, 3)], 3⟩ ∧
    ¬ RingRun twoPlaces 0 floodCalls := by
  refine ⟨by decide, rfl, fun h => ?_⟩
  exact absurd (h.bounded floodCalls [] _ (List.append_nil _).symm rfl) (by decide)

/-- A run in which a reserved item comes late is a ring buffer's. -/
theorem late_reserved_ringRun : RingRun twoPlaces 0
    [.push 1 (false, 1), .push 2 (false, 2), .push 3 (true, 3), .push 4 (false, 4),
      .since 5 2] :=
  (ring_buffer_iff (by decide) rfl).mpr (by decide)

end Llamenos.Worker.RingBuffer

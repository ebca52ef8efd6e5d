import Llamenos.Lib.Runs
import Mathlib.Data.List.Perm.Basic

/-!
# Writes that were checked before

Calls on one value, each with an update. A call checks its update against the value as it is, and
is done where the value does not ask for it; else it writes later, whatever the value is by then.
The calls overlap as they like.

A complete run is one in which every call has come to its end. Where its updates take effect is
decided by the order of the writes alone: any order of the updates that the value asks for at the
beginning is that of a run in which all of them have checked before the first one writes.

Results:
* `exists_complete`: **every order** of the updates asked for at the beginning has a run.
* `Settling.value_eq`: where the updates asked for commute, and those that come late change
  nothing, **every complete run** ends with them written.
-/

namespace Llamenos.Lib.CheckedWrites

variable {ι υ ν : Type}

structure State (ι υ ν : Type) where
  value : ν
  pending : ι → Option υ

inductive Event (ι υ : Type) where
  | check (call : ι) (update : υ)
  | write (call : ι)

/-- The updates that have been checked. -/
def checked (es : List (Event ι υ)) : List υ :=
  es.filterMap fun
    | .check _ u => some u
    | .write _ => none

theorem checked_append (es fs : List (Event ι υ)) : checked (es ++ fs) = checked es ++ checked fs :=
  List.filterMap_append

/-- What a list of updates, by the call that will write each, has in common with a table. -/
structure Listed (pending : ι → Option υ) (calls : List (ι × υ)) : Prop where
  nodup : (calls.map Prod.fst).Nodup
  mem_iff : ∀ i u, (i, u) ∈ calls ↔ pending i = some u
variable {pending : ι → Option υ} {calls : List (ι × υ)}

theorem Listed.eq_nil (h : Listed pending calls)
    (hnone : ∀ i, pending i = none) : calls = [] := by
  refine List.eq_nil_iff_forall_not_mem.mpr fun ⟨i, u⟩ hmem => ?_
  have hpending := (h.mem_iff i u).mp hmem
  rw [hnone i] at hpending
  cases hpending

variable [DecidableEq ι]

theorem Listed.add (h : Listed pending calls)
    {i : ι} (hfree : pending i = none) (u : υ) :
    Listed (Function.update pending i (some u)) ((i, u) :: calls) where
  nodup := by
    refine List.nodup_cons.mpr ⟨fun hmem => ?_, h.nodup⟩
    obtain ⟨⟨j, w⟩, hw, rfl⟩ := List.mem_map.mp hmem
    rw [(h.mem_iff j w).mp hw] at hfree
    cases hfree
  mem_iff j w := by
    by_cases hj : j = i
    · subst hj
      rw [Function.update_self, List.mem_cons, Prod.mk.injEq, Option.some.injEq, h.mem_iff, hfree]
      constructor
      · rintro (⟨-, rfl⟩ | hnone)
        · rfl
        · cases hnone
      · rintro rfl
        exact .inl ⟨rfl, rfl⟩
    · rw [Function.update_of_ne hj, ← h.mem_iff, List.mem_cons, Prod.mk.injEq]
      exact or_iff_right fun hw => hj hw.1

theorem Listed.remove (h : Listed pending calls)
    {i : ι} {u : υ} (hi : pending i = some u) :
    ∃ rest, calls.Perm ((i, u) :: rest) ∧ Listed (Function.update pending i none) rest := by
  obtain ⟨before, after, rfl⟩ := List.append_of_mem ((h.mem_iff i u).mpr hi)
  have hperm : (before ++ (i, u) :: after).Perm ((i, u) :: (before ++ after)) := List.perm_middle
  have hnodup := (hperm.map Prod.fst).nodup_iff.mp h.nodup
  obtain ⟨hfresh, hrest⟩ := List.nodup_cons.mp hnodup
  refine ⟨before ++ after, hperm, hrest, fun j w => ?_⟩
  by_cases hj : j = i
  · subst hj
    rw [Function.update_self]
    exact iff_of_false (fun hmem => hfresh (List.mem_map.mpr ⟨_, hmem, rfl⟩)) (by simp)
  · rw [Function.update_of_ne hj, ← h.mem_iff, hperm.mem_iff, List.mem_cons, Prod.mk.injEq]
    exact (or_iff_right fun hw => hj hw.1).symm

variable (asks : ν → υ → Bool) (put : ν → υ → ν)

def step (s : State ι υ ν) : Event ι υ → Option (State ι υ ν)
  | .check i u =>
    if asks s.value u then
      match s.pending i with
      | none => some { s with pending := Function.update s.pending i (some u) }
      | some _ => none
    else some s
  | .write i =>
    (s.pending i).map fun u => ⟨put s.value u, Function.update s.pending i none⟩

/-- A run from the value in which the updates have all been handled. -/
structure Completes (v : ν) (us : List υ) (es : List (Event ι υ)) (t : State ι υ ν) : Prop where
  run : Runs.run (step asks put) ⟨v, fun _ => none⟩ es = some t
  updates : (checked es).Perm us
  done : ∀ i, t.pending i = none

/-! ## Every order has a run -/

section Orders

/-- The calls from the `n`th on that have yet to write the updates. -/
def waiting (n : Nat) (us : List υ) : Nat → Option υ := fun i =>
  if i < n then none else us[i - n]?

theorem waiting_nil (n : Nat) : waiting n ([] : List υ) = fun _ => none := by
  funext i
  simp [waiting]

theorem waiting_head (n : Nat) (u : υ) (us : List υ) : waiting n (u :: us) n = some u := by
  simp [waiting]

theorem waiting_tail (n : Nat) (u : υ) (us : List υ) :
    Function.update (waiting n (u :: us)) n none = waiting (n + 1) us := by
  funext i
  by_cases hi : i = n
  · rw [hi, Function.update_self, waiting, if_pos (Nat.lt_succ_self n)]
  · rw [Function.update_of_ne hi]
    simp only [waiting]
    by_cases hlt : i < n
    · rw [if_pos hlt, if_pos (Nat.lt_succ_of_lt hlt)]
    · have hsub : i - n = (i - (n + 1)) + 1 := by omega
      rw [if_neg hlt, if_neg (by omega), hsub, List.getElem?_cons_succ]

theorem waiting_concat (us : List υ) (u : υ) :
    Function.update (waiting 0 us) us.length (some u) = waiting 0 (us ++ [u]) := by
  funext i
  by_cases hi : i = us.length
  · rw [hi, Function.update_self]
    simp [waiting]
  · rw [Function.update_of_ne hi]
    simp only [waiting, Nat.not_lt_zero, if_false, Nat.sub_zero]
    rcases Nat.lt_or_gt_of_ne hi with hlt | hgt
    · rw [List.getElem?_append_left hlt]
    · rw [List.getElem?_eq_none (by omega),
        List.getElem?_eq_none (by rw [List.length_append, List.length_singleton]; omega)]

variable {asks put} {v : ν}

/-- All of them check. -/
theorem run_checks (us : List υ) (hasks : ∀ u ∈ us, asks v u) :
    Runs.run (step asks put) ⟨v, fun _ => none⟩ (us.mapIdx fun i u => Event.check i u) =
      some ⟨v, waiting 0 us⟩ := by
  induction us using List.reverseRecOn with
  | nil => rw [waiting_nil]; rfl
  | append_singleton us u ih =>
    rw [List.mapIdx_append, Runs.run_append]
    refine ⟨_, ih fun w hw => hasks w (List.mem_append_left _ hw), ?_⟩
    have hfree : waiting 0 us us.length = none := by simp [waiting]
    have hstep : step asks put ⟨v, waiting 0 us⟩ (Event.check us.length u) =
        some ⟨v, waiting 0 (us ++ [u])⟩ := by
      simp only [step, hasks u (by simp), if_true, hfree, waiting_concat]
    simpa [Runs.run] using hstep

/-- Those that are not asked for are done when they have checked. -/
theorem run_refused {s : State Nat υ ν} (us : List υ) (hasks : ∀ u ∈ us, asks s.value u = false) :
    Runs.run (step asks put) s (us.map (Event.check 0)) = some s := by
  induction us with
  | nil => rfl
  | cons u us ih =>
    have hstep : step asks put s (Event.check 0 u) = some s := by
      rw [step, hasks u List.mem_cons_self]
      rfl
    exact Runs.run_cons.mpr ⟨s, hstep, ih fun w hw => hasks w (List.mem_cons_of_mem _ hw)⟩

/-- All of them write, in their order. -/
theorem run_writes (us : List υ) (v : ν) (n : Nat) :
    Runs.run (step asks put) ⟨v, waiting n us⟩ ((List.range' n us.length).map Event.write) =
      some ⟨us.foldl put v, fun _ => none⟩ := by
  induction us generalizing v n with
  | nil => rw [waiting_nil]; rfl
  | cons u us ih =>
    rw [List.length_cons, List.range'_succ, List.map_cons, Runs.run_cons]
    refine ⟨⟨put v u, waiting (n + 1) us⟩, ?_, ih (put v u) (n + 1)⟩
    simp only [step, waiting_head, Option.map_some, waiting_tail]

variable (put) in
/-- **Every order has a run**: the updates that the value asks for can be written in any order. -/
theorem exists_complete {us ordered : List υ} (hordered : ordered.Perm (us.filter (asks v))) :
    ∃ es t, Completes (ι := Nat) asks put v us es t ∧ t.value = ordered.foldl put v := by
  have hasks : ∀ u ∈ ordered, asks v u := fun u hu =>
    (List.mem_filter.mp (hordered.mem_iff.mp hu)).2
  let refused := us.filter fun u => !asks v u
  let es := (ordered.mapIdx fun i u => Event.check i u) ++ (refused.map (Event.check 0) ++
    (List.range' 0 ordered.length).map Event.write)
  refine ⟨es, ⟨ordered.foldl put v, fun _ => none⟩, ⟨?_, ?_, fun _ => rfl⟩, rfl⟩
  · refine Runs.run_append.mpr ⟨_, run_checks ordered hasks, Runs.run_append.mpr ?_⟩
    refine ⟨_, run_refused refused fun u hu => ?_, run_writes ordered v 0⟩
    simpa using (List.mem_filter.mp hu).2
  · have hchecks : checked (ordered.mapIdx fun i u => Event.check i u) = ordered := by
      simp [checked, List.mapIdx_eq_zipIdx_map]
    have hrefused : checked (refused.map (Event.check 0)) = refused := by
      simp [checked, List.filterMap_map]
    have hwrites : checked ((List.range' 0 ordered.length).map
        (Event.write : Nat → Event Nat υ)) = [] := by
      simp [checked, List.filterMap_map]
    rw [checked_append, checked_append, hchecks, hrefused, hwrites, List.append_nil]
    exact (hordered.append_right _).trans (List.filter_append_perm _ us)

end Orders

/-! ## Every run ends alike -/

/-- The updates that the value asks for commute, one of them that is no longer asked for would
change nothing, and no write makes the value ask for another. -/
structure Settling (v : ν) (us : List υ) : Prop where
  comm : ∀ u ∈ us, asks v u → ∀ w ∈ us, asks v w → ∀ x, put (put x u) w = put (put x w) u
  late : ∀ ws : List υ, (∀ w ∈ ws, w ∈ us ∧ asks v w) → ∀ u ∈ us, asks v u →
    asks (ws.foldl put v) u = false → put (ws.foldl put v) u = ws.foldl put v
  fresh : ∀ ws : List υ, (∀ w ∈ ws, w ∈ us ∧ asks v w) → ∀ u ∈ us, asks v u = false →
    asks (ws.foldl put v) u = false

section Settling

variable {asks put} {v : ν} {us : List υ}

/-- The order of the writes does not matter. -/
theorem Settling.foldl_perm (h : Settling asks put v us) {ws ws' : List υ}
    (hws : ∀ w ∈ ws, w ∈ us ∧ asks v w) (hperm : ws.Perm ws') (x : ν) :
    ws.foldl put x = ws'.foldl put x :=
  hperm.foldl_eq'
    (fun u hu w hw => h.comm u (hws u hu).1 (hws u hu).2 w (hws w hw).1 (hws w hw).2) x

/-- With what is pending written, the value is as if all that was asked for had been. -/
structure InTime (asks : ν → υ → Bool) (put : ν → υ → ν) (v : ν) (us : List υ) (s : State ι υ ν)
    (seen : List υ) : Prop where
  calls : ∃ calls, Listed s.pending calls ∧ (∀ p ∈ calls, p.2 ∈ us ∧ asks v p.2) ∧
    (calls.map Prod.snd).foldl put s.value = (seen.filter (asks v)).foldl put v
  written : ∃ ws : List υ, (∀ w ∈ ws, w ∈ us ∧ asks v w) ∧ s.value = ws.foldl put v

theorem InTime.step (h : Settling asks put v us) {s s' : State ι υ ν} {seen : List υ}
    {e : Event ι υ} (hs : InTime asks put v us s seen) (he : ∀ u ∈ checked [e], u ∈ us)
    (hstep : step asks put s e = some s') : InTime asks put v us s' (seen ++ checked [e]) := by
  obtain ⟨⟨calls, hlisted, hcalls, hvalue⟩, ws, hws, hwritten⟩ := hs
  have hpending : ∀ u ∈ calls.map Prod.snd, u ∈ us ∧ asks v u := by
    intro u hu
    obtain ⟨p, hp, rfl⟩ := List.mem_map.mp hu
    exact hcalls p hp
  cases e with
  | check i u =>
    have hu : u ∈ us := he u (by simp [checked])
    have hseen : (seen ++ checked [Event.check i u]).filter (asks v) =
        seen.filter (asks v) ++ if asks v u then [u] else [] := by
      rw [List.filter_append, show checked [Event.check i u] = [u] from rfl, List.filter_cons,
        List.filter_nil]
    -- an update that is asked for is written after the others, or would change nothing
    have hlast : asks v u → (calls.map Prod.snd).foldl put (put s.value u) =
        (seen.filter (asks v) ++ [u]).foldl put v := by
      intro hasks
      have hperm : (u :: calls.map Prod.snd).Perm (calls.map Prod.snd ++ [u]) :=
        (List.perm_append_singleton u _).symm
      have hswap := h.foldl_perm (fun w hw => ?_) hperm s.value
      · rw [List.foldl_cons, List.foldl_append, hvalue] at hswap
        rw [hswap, List.foldl_append]
      · rcases List.mem_cons.mp hw with rfl | hw
        · exact ⟨hu, hasks⟩
        · exact hpending w hw
    rw [CheckedWrites.step] at hstep
    split_ifs at hstep with hnow
    · have hasks : asks v u = true := by
        by_contra hnot
        rw [Bool.not_eq_true] at hnot
        rw [hwritten, h.fresh ws hws u hu hnot] at hnow
        cases hnow
      split at hstep
      case h_1 hfree =>
        obtain rfl := Option.some.inj hstep
        refine ⟨⟨(i, u) :: calls, hlisted.add hfree u, fun p hp => ?_, ?_⟩, ws, hws, hwritten⟩
        · rcases List.mem_cons.mp hp with rfl | hp
          · exact ⟨hu, hasks⟩
          · exact hcalls p hp
        · rw [List.map_cons, List.foldl_cons, hlast hasks, hseen, if_pos hasks]
      case h_2 => cases hstep
    · obtain rfl := Option.some.inj hstep
      refine ⟨⟨calls, hlisted, hcalls, ?_⟩, ws, hws, hwritten⟩
      rw [hseen]
      split_ifs with hasks
      · rw [Bool.not_eq_true] at hnow
        have hsame : put s.value u = s.value := by
          rw [hwritten] at hnow ⊢
          exact h.late ws hws u hu hasks hnow
        rw [← hlast hasks, hsame]
      · rw [List.append_nil]
        exact hvalue
  | write i =>
    obtain ⟨u, hu, rfl⟩ := Option.map_eq_some_iff.mp hstep
    obtain ⟨rest, hperm, hrest⟩ := hlisted.remove hu
    obtain ⟨hus, hasks⟩ := hcalls (i, u) (hperm.mem_iff.mpr List.mem_cons_self)
    refine ⟨⟨rest, hrest, fun p hp => hcalls p (hperm.mem_iff.mpr (List.mem_cons_of_mem _ hp)), ?_⟩,
      ws ++ [u], fun w hw => ?_, ?_⟩
    · have hsame := h.foldl_perm hpending (hperm.map Prod.snd) s.value
      rw [show checked [(Event.write i : Event ι υ)] = [] from rfl, List.append_nil, ← hvalue,
        hsame, List.map_cons, List.foldl_cons]
    · rcases List.mem_append.mp hw with hw | hw
      · exact hws w hw
      · rw [List.mem_singleton.mp hw]
        exact ⟨hus, hasks⟩
    · rw [List.foldl_append, ← hwritten]
      rfl

theorem InTime.run (h : Settling asks put v us) {s t : State ι υ ν} {seen : List υ}
    {es : List (Event ι υ)} (hs : InTime asks put v us s seen) (hes : ∀ u ∈ checked es, u ∈ us)
    (hrun : Runs.run (CheckedWrites.step asks put) s es = some t) :
    InTime asks put v us t (seen ++ checked es) := by
  induction es generalizing s seen with
  | nil => rwa [← Option.some.inj hrun, show checked ([] : List (Event ι υ)) = [] from rfl,
      List.append_nil]
  | cons e es ih =>
    have hsplit : checked (e :: es) = checked [e] ++ checked es := checked_append [e] es
    rw [hsplit] at hes ⊢
    obtain ⟨s', he, hrest⟩ := Runs.run_cons.mp hrun
    rw [← List.append_assoc]
    refine ih (hs.step h (fun u hu => hes u (List.mem_append_left _ hu)) he) (fun u hu => ?_) hrest
    exact hes u (List.mem_append_right _ hu)

/-- **Every complete run** ends with all the updates written that were asked for. -/
theorem Settling.value_eq (h : Settling asks put v us) {es : List (Event ι υ)} {t : State ι υ ν}
    (hrun : Completes asks put v us es t) : t.value = (us.filter (asks v)).foldl put v := by
  have hstart : InTime asks put v us (⟨v, fun _ => none⟩ : State ι υ ν) [] := by
    refine ⟨⟨[], ⟨List.nodup_nil, fun _ _ => by simp⟩, ?_, rfl⟩, [], ?_, rfl⟩
    · exact fun _ hp => by cases hp
    · exact fun _ hw => by cases hw
  obtain ⟨⟨calls, hlisted, -, hvalue⟩, -⟩ :=
    hstart.run h (fun u hu => hrun.updates.mem_iff.mp hu) hrun.run
  rw [hlisted.eq_nil hrun.done, List.nil_append] at hvalue
  refine hvalue.trans (h.foldl_perm (fun u hu => ?_) (hrun.updates.filter _) v)
  obtain ⟨hu, hasks⟩ := List.mem_filter.mp hu
  exact ⟨hrun.updates.mem_iff.mp hu, hasks⟩

end Settling

end Llamenos.Lib.CheckedWrites

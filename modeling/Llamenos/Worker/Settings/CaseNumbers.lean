import Llamenos.Lib.Runs
import Llamenos.Worker.Runtime

/-!
# The case numbers of a hub

`generateCaseNumber` takes the next value of a sequence: one for each hub, prefix and year. It does
so in one statement, an upsert, so that the calls come one after the other, in the order of their
statements. The number is the prefix, the year and the value, joined with hyphens; the prefix is any
text, and may have hyphens of its own.

Results:
* `number_eq`: what two equal numbers have in common.
* `taken_step`: each call takes a value above all those taken before, of its sequence.
* `caseNumbers_distinct`: **no two calls for a hub return the same number**, but for those whose
  prefixes differ by a hyphen at the end and whose years by the sign.
-/

namespace Llamenos.Worker.Settings.CaseNumbers

open Llamenos.Lib

/-- The primary key of `case_number_sequences`. -/
@[ext]
structure Key where
  hubId : String
  numberPrefix : String
  year : Int
  deriving DecidableEq

/-- The `next_value` of each row of `case_number_sequences`. -/
abbrev Sequences := Key → Option Nat

structure Data where
  numberPrefix : String
  year : Option Int
  hubId : Option String

/-- A call of `generateCaseNumber`, with the year by the clock. -/
structure Event where
  data : Data
  fullYear : Int

structure Generated where
  key : Key
  sequence : Nat

def Event.key (e : Event) : Key where
  hubId := e.data.hubId.getD ""
  numberPrefix := e.data.numberPrefix
  year := e.data.year.getD e.fullYear

/-- A column of type `integer` has 32 bits, with the sign. -/
def isInteger (n : Int) : Bool := -2 ^ 31 ≤ n ∧ n < 2 ^ 31

/-- The row's value after the upsert, or `none` if the database refuses it. -/
def upsert (s : Sequences) (key : Key) : Option Nat :=
  let nextValue : Nat := match s key with
    | none => 1
    | some nextValue => nextValue + 1
  if isInteger key.year && isInteger nextValue then some nextValue else none

/-- A call that is refused changes nothing. -/
def step (s : Sequences) (e : Event) : Option Sequences :=
  match upsert s e.key with
  | some nextValue => some (Function.update s e.key (some nextValue))
  | none => some s

/-- What a call returns: the values that its number is made of. -/
def out (s : Sequences) (e : Event) : List Generated :=
  match upsert s e.key with
  | some nextValue => [⟨e.key, nextValue⟩]
  | none => []

/-- `${prefix}-${year}-${String(sequence).padStart(4, '0')}`. -/
def Generated.number (g : Generated) : String :=
  String.ofList (g.key.numberPrefix.toList ++ '-' :: intChars g.key.year ++
    '-' :: padStart 4 '0' (decimal g.sequence))

/-- The one prefix has a hyphen more, and a year that is the other's with the sign changed. -/
def Mirrored (k k' : Key) : Prop :=
  k.numberPrefix = k'.numberPrefix ++ "-" ∧ 0 < k.year ∧ k'.year = -k.year

variable {s t : Sequences} {e : Event} {g g' : Generated} {ws : List Generated}

/-! ## The format -/

/-- **The last hyphen before a year** is the one that joins it, or its sign. -/
theorem joined_year_eq {xs ys : List Char} {i j : Int}
    (h : xs ++ '-' :: intChars i = ys ++ '-' :: intChars j) :
    (xs = ys ∧ i = j) ∨ (xs = ys ++ ['-'] ∧ 0 < i ∧ j = -i) ∨
      (ys = xs ++ ['-'] ∧ 0 < j ∧ i = -j) := by
  have hsplit : ∀ {xs ys : List Char} {m n : Nat},
      xs ++ '-' :: decimal m = ys ++ '-' :: decimal n → xs = ys ∧ m = n := by
    intro xs ys m n h
    obtain ⟨hxs, hdigits⟩ := (append_cons_inj_of_notMem_right (hyphen_notMem_decimal m)
      (hyphen_notMem_decimal n)).mp h
    exact ⟨hxs, decimal_inj.mp hdigits⟩
  have hsign : ∀ (xs : List Char) (n : Nat),
      xs ++ '-' :: intChars (.negSucc n) = (xs ++ ['-']) ++ '-' :: decimal (n + 1) := by
    intro xs n
    simp [intChars]
  cases i with
  | ofNat m =>
    cases j with
    | ofNat n =>
      obtain ⟨hxs, hm⟩ := hsplit h
      exact .inl ⟨hxs, by rw [hm]⟩
    | negSucc n =>
      rw [hsign] at h
      obtain ⟨hxs, hm⟩ := hsplit h
      refine .inr (.inl ⟨hxs, ?_, ?_⟩)
      · simp only [Int.ofNat_eq_natCast]
        omega
      · simp only [Int.ofNat_eq_natCast]
        omega
  | negSucc m =>
    rw [hsign] at h
    cases j with
    | ofNat n =>
      obtain ⟨hxs, hm⟩ := hsplit h
      refine .inr (.inr ⟨hxs.symm, ?_, ?_⟩)
      · simp only [Int.ofNat_eq_natCast]
        omega
      · simp only [Int.ofNat_eq_natCast]
        omega
    | negSucc n =>
      rw [hsign] at h
      obtain ⟨hxs, hm⟩ := hsplit h
      refine .inl ⟨List.append_cancel_right hxs, ?_⟩
      rw [Nat.succ.inj hm]

/-- **Equal numbers** have the same value, and the same prefix and year, or mirrored ones. -/
theorem number_eq (h : g.number = g'.number) :
    g.sequence = g'.sequence ∧
      ((g.key.numberPrefix = g'.key.numberPrefix ∧ g.key.year = g'.key.year) ∨
        Mirrored g.key g'.key ∨ Mirrored g'.key g.key) := by
  have hyphen : ∀ n, '-' ∉ padStart 4 '0' (decimal n) := by
    intro n hmem
    rcases List.mem_append.mp hmem with hzero | hdigit
    · exact absurd (List.eq_of_mem_replicate hzero) (by decide)
    · exact hyphen_notMem_decimal n hdigit
  obtain ⟨hjoined, hsequence⟩ := (append_cons_inj_of_notMem_right (hyphen g.sequence)
    (hyphen g'.sequence)).mp (String.ofList_injective h)
  refine ⟨zeros_decimal_inj hsequence, ?_⟩
  have hmore : ∀ {k k' : Key}, k.numberPrefix.toList = k'.numberPrefix.toList ++ ['-'] →
      k.numberPrefix = k'.numberPrefix ++ "-" := by
    intro k k' hlist
    refine String.toList_inj.mp ?_
    rw [hlist, String.toList_append]
    rfl
  rcases joined_year_eq hjoined with ⟨hsame, hyear⟩ | ⟨hlist, hpos, hyear⟩ | ⟨hlist, hpos, hyear⟩
  · exact .inl ⟨String.toList_inj.mp hsame, hyear⟩
  · exact .inr (.inl ⟨hmore hlist, hpos, hyear⟩)
  · exact .inr (.inr ⟨hmore hlist, hpos, hyear⟩)

/-! ## The sequences -/

/-- The values taken of a sequence, in order: each above the one before, and none above the row's.
-/
structure Taken (s : Sequences) (ws : List Generated) : Prop where
  below : ∀ g ∈ ws, ∃ nextValue, s g.key = some nextValue ∧ g.sequence ≤ nextValue
  increasing : ws.Pairwise fun g g' => g.key = g'.key → g.sequence < g'.sequence

theorem upsert_gt {key : Key} {nextValue value : Nat} (h : upsert s key = some nextValue)
    (hs : s key = some value) : value < nextValue := by
  unfold upsert at h
  rw [hs] at h
  dsimp only at h
  split_ifs at h
  rw [← Option.some.inj h]
  exact Nat.lt_succ_self value

/-- **Each call takes a value above all those taken before**, of its sequence. -/
theorem taken_step (hs : Taken s ws) (h : step s e = some t) : Taken t (ws ++ out s e) := by
  unfold step at h
  unfold out
  cases hupsert : upsert s e.key with
  | none =>
    rw [hupsert] at h
    rw [← Option.some.inj h, List.append_nil]
    exact hs
  | some nextValue =>
    rw [hupsert] at h
    rw [← Option.some.inj h]
    refine ⟨fun g hg => ?_, ?_⟩
    · rcases List.mem_append.mp hg with hold | hnew
      · by_cases hkey : g.key = e.key
        · obtain ⟨value, hvalue, hle⟩ := hs.below g hold
          rw [hkey] at hvalue ⊢
          rw [Function.update_self]
          exact ⟨nextValue, rfl, hle.trans (upsert_gt hupsert hvalue).le⟩
        · rw [Function.update_of_ne hkey]
          exact hs.below g hold
      · rw [List.mem_singleton.mp hnew, Function.update_self]
        exact ⟨nextValue, rfl, le_refl nextValue⟩
    · refine List.pairwise_append.mpr ⟨hs.increasing, List.pairwise_singleton _ _, ?_⟩
      intro g hold g' hnew hkey
      rw [List.mem_singleton.mp hnew] at hkey ⊢
      obtain ⟨value, hvalue, hle⟩ := hs.below g hold
      rw [show g.key = e.key from hkey] at hvalue
      exact hle.trans_lt (upsert_gt hupsert hvalue)

/-- No event is out of turn. -/
theorem run_total (s : Sequences) (es : List Event) : ∃ t, Runs.run step s es = some t := by
  induction es generalizing s with
  | nil => exact ⟨s, rfl⟩
  | cons e es ih =>
    have hstep : ∃ s', step s e = some s' := by
      unfold step
      cases upsert s e.key with
      | none => exact ⟨s, rfl⟩
      | some nextValue => exact ⟨_, rfl⟩
    obtain ⟨s', hs'⟩ := hstep
    obtain ⟨t, ht⟩ := ih s'
    exact ⟨t, Runs.run_cons.mpr ⟨s', hs', ht⟩⟩

/-- **No two calls for a hub return the same number**, from any sequences on, but for those whose
prefixes and years are mirrored. -/
theorem caseNumbers_distinct (s : Sequences) (es : List Event) :
    (Runs.emitted step out s es).Pairwise fun g g' =>
      g.key.hubId = g'.key.hubId → g.number = g'.number →
        Mirrored g.key g'.key ∨ Mirrored g'.key g.key := by
  obtain ⟨t, ht⟩ := run_total s es
  have hstart : Taken s [] := by
    refine ⟨fun g hg => ?_, List.Pairwise.nil⟩
    cases hg
  have htaken : Taken t (Runs.emitted step out s es) :=
    Runs.run_emitted (fun _ _ _ _ => taken_step) [] hstart ht
  refine htaken.increasing.imp ?_
  intro g g' hless hhub hnumber
  obtain ⟨hsequence, ⟨hpre, hyear⟩ | hmirrored⟩ := number_eq hnumber
  · exact absurd hsequence (hless (Key.ext hhub hpre hyear)).ne
  · exact hmirrored

/-- The number of a year before the first is one of the year after, under a prefix that ends in a
hyphen. -/
theorem mirrored_collide :
    ¬ (Runs.emitted step out (fun _ => none)
        [⟨⟨"A-", some 5, none⟩, 2026⟩, ⟨⟨"A", some (-5), none⟩, 2026⟩]).Pairwise fun g g' =>
      g.key.hubId = g'.key.hubId → g.number ≠ g'.number := by
  decide +kernel

end Llamenos.Worker.Settings.CaseNumbers

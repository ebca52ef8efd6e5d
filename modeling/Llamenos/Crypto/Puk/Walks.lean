import Llamenos.Crypto.Puk

/-!
# Walks that come to an end

Any walk along the chain, with links that may be forged, missing or out of order. The index of a
link is its generation less 2, and the first generation has no link: a walk that arrives there and
must go on subtracts below zero. A subtraction that underflows panics in a build with overflow
checks, and a build without them goes on with the wrapped index.

Results:
* `decryptClkrLink_returns`: no link makes its decryption panic.
* `walkLoop_step_eq`, `walkLoop_returns_iff`: one round of the loop, and when the loop ends.
* `generationWalk_unchecked_returns`: without overflow checks every walk ends.
* `generationWalk_returns_iff`: **a walk never underflows exactly if it does not open every link
  and go on below the first generation**.
-/

namespace Llamenos.Crypto.Puk

open Llamenos.Lib Llamenos.Lib.Outcome

variable {prims : PukPrims}

/-- The links open one after the other, from a seed of this generation to that of the first. -/
def OpensToFirst (prims : PukPrims) (links : List String) : U8Array 32 → Nat → Prop
  | seed, n + 2 =>
    let gen := UInt32.ofNat (n + 2)
    ∃ link older, links[n]? = some link ∧
      decryptClkrLink prims link (deriveSecretboxKey prims seed gen) gen = .ok older ∧
      OpensToFirst prims links older (n + 1)
  | _, _ => True

/-- **No link makes its decryption panic.** -/
theorem decryptClkrLink_returns (link : String) (key : U8Array 32) (gen : UInt32) :
    (decryptClkrLink prims link key gen).Returns := by
  unfold decryptClkrLink
  cases hexDecode link with
  | error e => simp
  | ok data =>
    rw [mapErr_ok, ok_bind]
    split_ifs with hshort
    · simp
    have hnonce : ((data.take 12).drop 0).length = 12 := by
      rw [List.drop_zero, List.length_take]
      omega
    rw [slice_ok (Nat.zero_le _) (by omega), ok_bind, U8Array.fromSlice_ok hnonce, ok_bind,
      slice_ok (by omega) (Nat.le_refl _), ok_bind, aes256GcmNew_ok key.length_eq, mapErr_ok,
      ok_bind]
    split
    · simp
    · split_ifs with hlen
      · simp
      · rw [U8Array.fromSlice_ok (not_not.mp hlen)]
        simp

/-! ## One round -/

theorem toNat_sub_two {gen : UInt32} (h : 2 ≤ gen.toNat) : (gen - 2).toNat = gen.toNat - 2 :=
  UInt32.toNat_sub_of_le _ _ (UInt32.le_iff_toNat_le.mpr h)

theorem toNat_sub_one {gen : UInt32} (h : 1 ≤ gen.toNat) : (gen - 1).toNat = gen.toNat - 1 :=
  UInt32.toNat_sub_of_le _ _ (UInt32.le_iff_toNat_le.mpr h)

/-- A round above the first generation: its link is missing, or it is opened. -/
theorem walkLoop_step_eq (p : Profile) {target gen : UInt32} (hlt : target < gen)
    (hgen : 2 ≤ gen.toNat) (links : List String) (seed : U8Array 32) :
    walkLoop p prims target links seed gen =
      match links[gen.toNat - 2]? with
      | none => .err (.invalidInput s!"missing CLKR chain link for generation {gen}")
      | some link =>
        decryptClkrLink prims link (deriveSecretboxKey prims seed gen) gen >>= fun older =>
          walkLoop p prims target links older (gen - 1) := by
  have htwo : (2 : UInt32) ≤ gen := UInt32.le_iff_toNat_le.mpr hgen
  rw [walkLoop, dif_pos hlt, Profile.u32Sub_ok p htwo, ok_bind, toNat_sub_two hgen]
  split_ifs with hmissing
  · rw [List.getElem?_eq_none hmissing]
  · have hin := Nat.lt_of_not_le hmissing
    rw [List.getElem?_eq_getElem hin, index_ok hin]
    rfl

/-- The loop is over at its target. -/
theorem walkLoop_target (p : Profile) {target gen : UInt32} (h : ¬ target < gen)
    (links : List String) (seed : U8Array 32) :
    walkLoop p prims target links seed gen = .ok seed := by
  rw [walkLoop, dif_neg h]

/-- A round that goes on below the first generation. -/
theorem walkLoop_first (p : Profile) (links : List String) (seed : U8Array 32) :
    walkLoop p prims 0 links seed 1 =
      (p.overflow ((1 : UInt32) - 2) >>= fun linkIdx =>
        if links.length ≤ linkIdx.toNat then
          .err (.invalidInput s!"missing CLKR chain link for generation {(1 : UInt32)}")
        else do
          let link ← index links linkIdx.toNat
          let older ← decryptClkrLink prims link (deriveSecretboxKey prims seed 1) 1
          walkLoop p prims 0 links older 0) := by
  rw [walkLoop]
  rfl

/-! ## When a walk ends -/

/-- **Without overflow checks the loop ends**, wherever it is. -/
theorem walkLoop_unchecked_returns (target : UInt32) (links : List String) (n : Nat) :
    ∀ (gen : UInt32) (seed : U8Array 32), gen.toNat = n →
      (walkLoop ⟨false⟩ prims target links seed gen).Returns := by
  induction n with
  | zero =>
    intro gen seed hgen
    have hend : ¬ target < gen := fun hlt => by
      have := UInt32.lt_iff_toNat_lt.mp hlt
      omega
    rw [walkLoop_target _ hend]
    exact returns_ok seed
  | succ n ih =>
    intro gen seed hgen
    by_cases hlt : target < gen
    · have hprev : (gen - 1).toNat = n := by
        rw [toNat_sub_one (by omega), hgen, Nat.add_sub_cancel]
      have hopened : ∀ link : String, (decryptClkrLink prims link
          (deriveSecretboxKey prims seed gen) gen >>= fun older =>
            walkLoop ⟨false⟩ prims target links older (gen - 1)).Returns := fun link =>
        bind_returns (decryptClkrLink_returns _ _ _) fun older _ => ih _ _ hprev
      rw [walkLoop, dif_pos hlt]
      have hsub : Profile.u32Sub (ε := CryptoError) ⟨false⟩ gen 2 = .ok (gen - 2) := by
        unfold Profile.u32Sub Profile.overflow
        split <;> rfl
      rw [hsub, ok_bind]
      split_ifs with hmissing
      · simp
      · rw [index_ok (Nat.lt_of_not_le hmissing)]
        exact hopened _
    · rw [walkLoop_target _ hlt]
      exact returns_ok seed

/-- **With overflow checks the loop ends exactly if** it does not come to the first generation and
go on. -/
theorem walkLoop_returns_iff (target : UInt32) (links : List String) (n : Nat) :
    ∀ (gen : UInt32) (seed : U8Array 32), gen.toNat = n →
      ((walkLoop ⟨true⟩ prims target links seed gen).Returns ↔
        ¬ (target = 0 ∧ gen ≠ 0 ∧ OpensToFirst prims links seed n)) := by
  induction n with
  | zero =>
    intro gen seed hgen
    obtain rfl : gen = 0 := UInt32.toNat_inj.mp hgen
    rw [walkLoop_target _ UInt32.not_lt_zero]
    exact iff_of_true (returns_ok seed) fun h => h.2.1 rfl
  | succ n ih =>
    intro gen seed hgen
    have hne : gen ≠ 0 := by
      rintro rfl
      cases hgen
    by_cases hlt : target < gen
    · cases n with
      | zero =>
        obtain rfl : gen = 1 := UInt32.toNat_inj.mp hgen
        obtain rfl : target = 0 := UInt32.toNat_inj.mp (by
          have := UInt32.lt_iff_toNat_lt.mp hlt
          simpa using this)
        rw [walkLoop_first]
        exact iff_of_false (not_returns_panic .arithmetic) fun h => h ⟨rfl, hne, trivial⟩
      | succ m =>
        have hprev : (gen - 1).toNat = m + 1 := by
          rw [toNat_sub_one (by omega), hgen, Nat.add_sub_cancel]
        have hprev0 : gen - 1 ≠ 0 := by
          intro h0
          rw [h0] at hprev
          cases hprev
        have hofNat : UInt32.ofNat (m + 2) = gen := by rw [← hgen, UInt32.ofNat_toNat]
        rw [walkLoop_step_eq _ hlt (by omega), hgen,
          show m + 1 + 1 - 2 = m from rfl, OpensToFirst, hofNat]
        cases links[m]? with
        | none => exact iff_of_true (returns_err _) (by simp)
        | some link =>
          dsimp only
          cases hopen : decryptClkrLink prims link (deriveSecretboxKey prims seed gen) gen with
          | ok older =>
            rw [ok_bind, ih _ older hprev]
            simp [hne, hprev0, hopen]
          | err e =>
            rw [err_bind]
            exact iff_of_true (returns_err e) (by simp [hopen])
          | panic r => exact absurd hopen (decryptClkrLink_returns _ _ _ r)
    · rw [walkLoop_target _ hlt]
      refine iff_of_true (returns_ok seed) ?_
      rintro ⟨rfl, -, -⟩
      exact hlt (UInt32.pos_iff_ne_zero.mpr hne)

/-- **Without overflow checks every walk ends.** -/
theorem generationWalk_unchecked_returns (seed : U8Array 32) (currentGen targetGen : UInt32)
    (links : List String) :
    (generationWalk ⟨false⟩ prims seed currentGen targetGen links).Returns := by
  unfold generationWalk
  split_ifs
  · simp
  · simp
  · exact walkLoop_unchecked_returns _ _ _ _ _ rfl

/-- **A walk returns and never underflows, in any build, exactly if** its target is a generation,
or it starts from none, or a link on the way to the first generation is missing or does not
open. -/
theorem generationWalk_returns_iff (prims : PukPrims) (seed : U8Array 32)
    (currentGen targetGen : UInt32) (links : List String) :
    (∀ p, (generationWalk p prims seed currentGen targetGen links).Returns) ↔
      targetGen ≠ 0 ∨ currentGen = 0 ∨ ¬ OpensToFirst prims links seed currentGen.toNat := by
  have hchecked : (generationWalk ⟨true⟩ prims seed currentGen targetGen links).Returns ↔
      ¬ (targetGen = 0 ∧ currentGen ≠ 0 ∧ OpensToFirst prims links seed currentGen.toNat) := by
    rw [← walkLoop_returns_iff targetGen links _ currentGen seed rfl]
    unfold generationWalk
    split_ifs with habove hsame
    · rw [walkLoop_target _ (UInt32.not_lt.mpr habove)]
    · rw [walkLoop_target _ (UInt32.not_lt.mpr habove)]
      exact iff_of_true (returns_err _) (returns_ok seed)
    · rfl
  constructor
  · intro h
    have hnot := hchecked.mp (h ⟨true⟩)
    tauto
  · rintro h ⟨checks⟩
    cases checks with
    | false => exact generationWalk_unchecked_returns _ _ _ _
    | true => exact hchecked.mpr (by tauto)

theorem generationWalk_underflows :
    ¬ ∀ p, (generationWalk p samplePrims (sampleDraws 1).seed 1 0 []).Returns := by
  intro h
  have hpanic : generationWalk ⟨true⟩ samplePrims (sampleDraws 1).seed 1 0 [] =
      .panic .arithmetic := by
    unfold generationWalk
    rw [if_neg (by decide), walkLoop_first]
    rfl
  exact h ⟨true⟩ .arithmetic hpanic

end Llamenos.Crypto.Puk

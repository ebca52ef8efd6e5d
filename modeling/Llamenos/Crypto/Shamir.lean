import Llamenos.Crypto.Gf256
import Llamenos.Lib.SecretSharing
import Mathlib.Data.List.GetD
import Mathlib.Data.List.Range

/-!
# Shamir sharing: `split`, `combine`

Model of `split`, `combine` and `validate_params` (`packages/crypto/src/shamir.rs`, 198-329 and
369-396). The random coefficients are the buffer that the operating system's generator fills;
every buffer of the right length is a possible draw (`Coeffs`).

Results:
* `evaluate_ok`, `split_ok`: the shares are the values of one dealing polynomial per secret byte.
* `interpolateByte_ok`, `combine_ok`: on shares with distinct nonzero points and equal lengths,
  `combine` returns Lagrange's formula at 0, byte by byte.
* `combine_split`: at least `threshold` distinct shares of a split, in any order, give back the
  secret.
* `split_hides`: below `threshold`, a bijection of the draws carries the sharings of one secret
  to those of another without changing the shares seen.
-/

namespace Llamenos.Crypto.Shamir

open Llamenos.Lib Llamenos.Lib.Outcome Llamenos.Lib.SecretSharing

/-! ## The code -/

/-- `Share`: the evaluation point and one value per secret byte. -/
structure Share where
  x : UInt8
  y : Bytes

/-- `validate_params`. -/
def validateParams (total threshold : UInt8) : Call Unit :=
  if threshold < 2 then .err (.invalidInput "threshold must be at least 2")
  else if threshold > 5 then .err (.invalidInput "threshold must be at most 5")
  else if total < 3 then .err (.invalidInput "total shares must be at least 3")
  else if total > 5 then .err (.invalidInput "total shares must be at most 5")
  else if threshold > total then
    .err (.invalidInput s!"threshold ({threshold}) must not exceed total ({total})")
  else .ok ()

/-- The loop over `coeff_idx` in `split`: the value at `x` of the polynomial of one secret byte.
The loop variables are `value` and `x_power`. -/
def evaluate (coeffs : Bytes) (coeffOffset count : Nat) (secretByte x : UInt8) : Call UInt8 := do
  let s ← (List.range count).foldlM (fun (s : UInt8 × UInt8) coeffIdx => do
    let c ← index coeffs (coeffOffset + coeffIdx)
    let term := gf256Mul c s.2
    pure (gf256Add s.1 term, gf256Mul s.2 x)) (secretByte, x)
  pure s.1

/-- The body of `for share in shares.iter_mut()` in `split`: byte `b` is (value, index). -/
def dealByte (coeffs : Bytes) (threshold : UInt8) (b : UInt8 × Nat) (share : Share) :
    Call Share := do
  let coeffOffset := b.2 * (threshold.toNat - 1)
  let value ← evaluate coeffs coeffOffset (threshold.toNat - 1) b.1 share.x
  let y ← store share.y b.2 value
  pure { share with y }

/-- `split`. `drawn` is the coefficient buffer after `getrandom`, or its error. -/
def split (secret : Bytes) (total threshold : UInt8) (drawn : Except String Bytes) :
    Call (List Share) := do
  validateParams total threshold
  if secret.isEmpty then .err (.invalidInput "secret must not be empty")
  else do
    let coeffs ← mapErr (fun e => .encryptionFailed s!"RNG failed: {e}") drawn
    let shares := (List.range' 1 total.toNat).map fun x =>
      Share.mk (UInt8.ofNat x) (List.replicate secret.length 0)
    secret.zipIdx.foldlM (fun shares b => shares.mapM (dealByte coeffs threshold b)) shares

/-- The duplicate check of `combine`: the first point that a later share repeats. -/
def duplicateX : List Share → Option UInt8
  | [] => none
  | share :: shares => if shares.any (·.x == share.x) then some share.x else duplicateX shares

/-- The loop over `j` in `combine`: `numerator` and `denominator` of the basis polynomial of
share `i` at 0. -/
def lagrangeFraction (shares : List Share) (i : Nat) (xi : UInt8) : UInt8 × UInt8 :=
  shares.zipIdx.foldl (fun (s : UInt8 × UInt8) shareJ =>
    if i = shareJ.2 then s
    else (gf256Mul s.1 shareJ.1.x, gf256Mul s.2 (gf256Add xi shareJ.1.x))) (1, 1)

/-- The loop over `i` in `combine`: one byte of the secret. -/
def interpolateByte (shares : List Share) (byteIdx : Nat) : Call UInt8 :=
  shares.zipIdx.foldlM (fun value shareI => do
    let yi ← index shareI.1.y byteIdx
    let fraction := lagrangeFraction shares shareI.2 shareI.1.x
    let lagrangeCoeff ← gf256Div fraction.1 fraction.2
    let term := gf256Mul yi lagrangeCoeff
    pure (gf256Add value term)) 0

/-- `combine`. The share count is compared as a `u8`, as in the source. -/
def combine (shares : List Share) (threshold : UInt8) : Call Bytes :=
  match shares with
  | [] => .err (.invalidInput "no shares provided")
  | first :: _ =>
    if UInt8.ofNat shares.length < threshold then
      .err (.invalidInput
        s!"insufficient shares: got {shares.length}, need at least {threshold}")
    else if shares.any (·.y.length != first.y.length) then
      .err (.invalidInput "shares have inconsistent lengths")
    else
      match duplicateX shares with
      | some x => .err (.invalidInput s!"duplicate share x value: {x}")
      | none =>
        if shares.any (·.x == 0) then .err (.invalidInput "share x value must not be 0")
        else
          (List.range first.y.length).foldlM (fun secret byteIdx => do
            let value ← interpolateByte shares byteIdx
            store secret byteIdx value) (List.replicate first.y.length 0)

/-- The possible draws: one buffer of `threshold - 1` coefficients per secret byte. -/
@[ext] structure Coeffs (threshold : UInt8) (secretLen : Nat) where
  buffer : Bytes
  length_eq : buffer.length = (threshold.toNat - 1) * secretLen

/-! ## Dealing: `split` evaluates one polynomial per byte -/

/-- The coefficients that the loop reads for one byte, from `offset` on. -/
def coeffsAt (coeffs : Bytes) (offset count : Nat) : Fin count → Gf256 :=
  fun j => ⟨coeffs.getD (offset + j) 0⟩

/-- The value at `x` of the polynomial dealt for the secret byte `b`. -/
noncomputable def shareByte (coeffs : Bytes) (offset count : Nat) (b x : UInt8) : UInt8 :=
  ((dealPoly (⟨b⟩ : Gf256) (coeffsAt coeffs offset count)).eval ⟨x⟩).byte

/-- **The inner loop of `split` evaluates the dealing polynomial.** -/
theorem evaluate_ok {coeffs : Bytes} {offset count : Nat} (h : offset + count ≤ coeffs.length)
    (b x : UInt8) : evaluate coeffs offset count b x = .ok (shareByte coeffs offset count b x) := by
  -- after `m` rounds: `value` is the partial sum, `x_power` is `x^(m+1)`
  have loop : ∀ m, m ≤ count → (List.range m).foldlM (fun (s : UInt8 × UInt8) coeffIdx => do
      let c ← index (ε := CryptoError) coeffs (offset + coeffIdx)
      let term := gf256Mul c s.2
      pure (gf256Add s.1 term, gf256Mul s.2 x)) (b, x) =
      .ok ((⟨b⟩ + ∑ i ∈ Finset.range m, ⟨coeffs.getD (offset + i) 0⟩ * ⟨x⟩ ^ (i + 1) :
        Gf256).byte, ((⟨x⟩ : Gf256) ^ (m + 1)).byte) := by
    intro m
    induction m with
    | zero => intro _; simp
    | succ m ih =>
      intro hm
      have hlt : offset + m < coeffs.length := by omega
      rw [List.range_succ, List.foldlM_append, ih (by omega), ok_bind, List.foldlM_cons,
        index_ok hlt, Finset.sum_range_succ, pow_succ _ (m + 1), ← add_assoc,
        List.getD_eq_getElem _ _ hlt]
      rfl
  unfold evaluate
  rw [loop count le_rfl, shareByte, eval_dealPoly,
    ← Fin.sum_univ_eq_sum_range (fun i => (⟨coeffs.getD (offset + i) 0⟩ : Gf256) * ⟨x⟩ ^ (i + 1))]
  rfl

/-- The share that `split` hands out at `x`. -/
noncomputable def shareAt (secret coeffs : Bytes) (count : Nat) (x : UInt8) : Share :=
  ⟨x, secret.zipIdx.map fun b => shareByte coeffs (b.2 * count) count b.1 x⟩

/-- The evaluation points `1..=total`. -/
def points (total : UInt8) : List UInt8 := (List.range' 1 total.toNat).map UInt8.ofNat
variable {total threshold : UInt8}

theorem validateParams_ok (h : validateParams total threshold = .ok ()) :
    2 ≤ threshold.toNat ∧ threshold.toNat ≤ total.toNat ∧ total.toNat ≤ 5 := by
  unfold validateParams at h
  split_ifs at h with h1 h2 h3 h4 h5
  simp only [UInt8.lt_iff_toNat_lt, gt_iff_lt, not_lt] at h1 h4 h5
  exact ⟨h1, h5, h4⟩

/-- The element that follows `done` in an enumerated list carries the number of those done. -/
theorem zipIdx_split {α : Type} {xs : List α} {done rest : List (α × Nat)} {b : α × Nat}
    (h : xs.zipIdx = done ++ b :: rest) :
    b.2 = done.length ∧ done.length + rest.length + 1 = xs.length := by
  have hlen := congrArg List.length h
  have hget := congrArg (fun l => l[done.length]?) h
  simp only [List.length_zipIdx, List.length_append, List.length_cons] at hlen
  simp only [List.getElem?_zipIdx, List.getElem?_append_right (Nat.le_refl _), Nat.sub_self,
    List.getElem?_cons_zero, Option.map_eq_some_iff, Nat.zero_add] at hget
  obtain ⟨a, _, rfl⟩ := hget
  exact ⟨rfl, by omega⟩

/-- The state of a share of `n` bytes once the bytes `done` are dealt: the rest is still zero. -/
noncomputable def partialShare (coeffs : Bytes) (count n : Nat) (done : List (UInt8 × Nat))
    (x : UInt8) : Share :=
  ⟨x, done.map (fun b => shareByte coeffs (b.2 * count) count b.1 x) ++
    List.replicate (n - done.length) 0⟩

theorem dealByte_ok {coeffs : Bytes} {threshold : UInt8} {n : Nat} {done : List (UInt8 × Nat)}
    {b : UInt8 × Nat} (hc : coeffs.length = (threshold.toNat - 1) * n) (hb : b.2 = done.length)
    (hn : done.length < n) (x : UInt8) :
    dealByte coeffs threshold b (partialShare coeffs (threshold.toNat - 1) n done x) =
      .ok (partialShare coeffs (threshold.toNat - 1) n (done ++ [b]) x) := by
  have hread : b.2 * (threshold.toNat - 1) + (threshold.toNat - 1) ≤ coeffs.length := by
    rw [hc, hb, ← Nat.succ_mul, Nat.mul_comm]
    exact Nat.mul_le_mul_left _ hn
  have hrest : n - done.length = (n - (done ++ [b]).length) + 1 := by
    simp only [List.length_append, List.length_singleton]
    omega
  have hlen : b.2 = (done.map fun b => shareByte coeffs (b.2 * (threshold.toNat - 1))
      (threshold.toNat - 1) b.1 x).length := by
    rw [List.length_map, hb]
  have hlt : b.2 < (partialShare coeffs (threshold.toNat - 1) n done x).y.length := by
    simp only [partialShare, List.length_append, List.length_map, List.length_replicate]
    omega
  simp only [dealByte, evaluate_ok hread, ok_bind, store_ok hlt, pure_eq]
  congr 1
  simp only [partialShare, Share.mk.injEq, true_and]
  rw [hrest, hlen, set_append_replicate, ← hlen, List.map_append, List.map_singleton]

/-- **`split` hands out the values of the dealing polynomials at `1..=total`.** -/
theorem split_ok {secret coeffs : Bytes}
    (hv : validateParams total threshold = .ok ()) (hs : secret ≠ [])
    (hc : coeffs.length = (threshold.toNat - 1) * secret.length) :
    split secret total threshold (.ok coeffs) =
      .ok ((points total).map (shareAt secret coeffs (threshold.toNat - 1))) := by
  obtain ⟨t, hf, rfl⟩ := foldlM_inv
    (g := fun shares b => shares.mapM (dealByte coeffs threshold b))
    (fun done shares =>
      shares = (points total).map (partialShare coeffs (threshold.toNat - 1) secret.length done))
    (l := secret.zipIdx)
    (s := (List.range' 1 total.toNat).map fun x =>
      Share.mk (UInt8.ofNat x) (List.replicate secret.length 0))
    (by simp [points, partialShare])
    (by
      rintro done b rest _ hl rfl
      obtain ⟨hb, hlen⟩ := zipIdx_split hl
      refine ⟨_, ?_, rfl⟩
      rw [List.mapM_map]
      exact mapM_eq_ok fun x _ => dealByte_ok hc hb (by omega) x)
  unfold split
  rw [hv, ok_bind, if_neg (by simpa using hs), mapErr_ok, ok_bind, hf]
  congr 1
  refine List.map_congr_left fun x _ => ?_
  simp [partialShare, shareAt]

/-! ## Reconstruction: `combine` is Lagrange's formula at 0 -/

theorem zipIdx_map_eq_ofFn {α β : Type} (xs : List α) (g : α × Nat → β) :
    xs.zipIdx.map g = List.ofFn fun i : Fin xs.length => g (xs[i], i) := by
  apply List.ext_getElem
  · simp
  · intro i _ _
    simp

theorem prod_erase_eq {n : Nat} (i : Fin n) (f : Fin n → Gf256) :
    ∏ j ∈ Finset.univ.erase i, f j = ∏ j : Fin n, if (i : Nat) = (j : Nat) then 1 else f j := by
  rw [← Finset.mul_prod_erase Finset.univ _ (Finset.mem_univ i), if_pos rfl, one_mul]
  refine Finset.prod_congr rfl fun j hj => ?_
  rw [if_neg fun h => Finset.ne_of_mem_erase hj (Fin.ext h).symm]

/-- The numerator loop multiplies the other points, the denominator loop the differences. -/
theorem lagrangeFraction_eq (shares : List Share) (i : Fin shares.length) (xi : UInt8) :
    (⟨(lagrangeFraction shares i xi).1⟩ : Gf256) =
        ∏ j ∈ Finset.univ.erase i, (0 - ⟨shares[j].x⟩) ∧
      (⟨(lagrangeFraction shares i xi).2⟩ : Gf256) =
        ∏ j ∈ Finset.univ.erase i, (⟨xi⟩ - ⟨shares[j].x⟩) := by
  have loop : ∀ (l : List (Share × Nat)) (n d : UInt8),
      l.foldl (fun (s : UInt8 × UInt8) shareJ => if (i : Nat) = shareJ.2 then s
        else (gf256Mul s.1 shareJ.1.x, gf256Mul s.2 (gf256Add xi shareJ.1.x))) (n, d) =
      ((⟨n⟩ * (l.map fun p => if (i : Nat) = p.2 then 1 else (⟨p.1.x⟩ : Gf256)).prod : Gf256).byte,
        (⟨d⟩ * (l.map fun p => if (i : Nat) = p.2 then 1 else (⟨xi⟩ + ⟨p.1.x⟩ : Gf256)).prod :
          Gf256).byte) := by
    intro l
    induction l with
    | nil => intro n d; simp
    | cons p l ih =>
      intro n d
      rw [List.foldl_cons, List.map_cons, List.map_cons, List.prod_cons, List.prod_cons]
      by_cases h : i = p.2
      · rw [if_pos h, if_pos h, if_pos h, one_mul, one_mul, ih]
      · rw [if_neg h, if_neg h, if_neg h, ih, ← mul_assoc, ← mul_assoc]
        rfl
  unfold lagrangeFraction
  rw [loop, zipIdx_map_eq_ofFn, zipIdx_map_eq_ofFn, List.prod_ofFn, List.prod_ofFn,
    prod_erase_eq, prod_erase_eq]
  have hone : (⟨1⟩ : Gf256) = 1 := rfl
  constructor
  · show (⟨1⟩ * _ : Gf256) = _
    rw [hone, one_mul]
    refine Finset.prod_congr rfl fun j _ => ?_
    rw [Gf256.sub_eq_add, zero_add]
  · show (⟨1⟩ * _ : Gf256) = _
    rw [hone, one_mul]
    refine Finset.prod_congr rfl fun j _ => ?_
    rw [Gf256.sub_eq_add]

/-- The contribution of share `i` to the secret byte at `byteIdx`. -/
noncomputable def lagrangeTerm (shares : List Share) (byteIdx : Nat) (i : Fin shares.length) :
    Gf256 :=
  ⟨shares[i].y.getD byteIdx 0⟩ * ((∏ j ∈ Finset.univ.erase i, (0 - ⟨shares[j].x⟩)) /
    ∏ j ∈ Finset.univ.erase i, (⟨shares[i].x⟩ - ⟨shares[j].x⟩))
variable {shares : List Share}

theorem point_injective (hx : (shares.map (·.x)).Nodup) :
    Function.Injective fun i : Fin shares.length => (⟨shares[i].x⟩ : Gf256) := by
  intro i j h
  have hget : (shares.map (·.x)).get (i.cast (by simp)) =
      (shares.map (·.x)).get (j.cast (by simp)) := by
    simpa using congrArg Gf256.byte h
  simpa [Fin.ext_iff] using List.nodup_iff_injective_get.mp hx hget

/-- **One byte of `combine` is Lagrange's formula at 0.** -/
theorem interpolateByte_ok {byteIdx : Nat}
    (hx : (shares.map (·.x)).Nodup) (hy : ∀ s ∈ shares, byteIdx < s.y.length) :
    interpolateByte shares byteIdx = .ok (∑ i, lagrangeTerm shares byteIdx i).byte := by
  let term : Share × Nat → Gf256 := fun p =>
    if h : p.2 < shares.length then lagrangeTerm shares byteIdx ⟨p.2, h⟩ else 0
  have body : ∀ (value : UInt8), ∀ p ∈ shares.zipIdx, (do
      let yi ← index p.1.y byteIdx
      let fraction := lagrangeFraction shares p.2 p.1.x
      let lagrangeCoeff ← gf256Div fraction.1 fraction.2
      let term := gf256Mul yi lagrangeCoeff
      pure (gf256Add value term) : Call UInt8) = .ok (⟨value⟩ + term p : Gf256).byte := by
    intro value p hp
    obtain ⟨s, i⟩ := p
    obtain ⟨hi, rfl⟩ := List.mk_mem_zipIdx_iff_getElem?.mp hp |> List.getElem?_eq_some_iff.mp
    obtain ⟨hnum, hden⟩ := lagrangeFraction_eq shares ⟨i, hi⟩ shares[i].x
    have hne : (lagrangeFraction shares i shares[i].x).2 ≠ 0 := by
      intro h0
      have hz : (⟨(lagrangeFraction shares i shares[i].x).2⟩ : Gf256) = 0 := Gf256.ext h0
      rw [hden, Finset.prod_eq_zero_iff] at hz
      obtain ⟨j, hj, hzero⟩ := hz
      exact Finset.ne_of_mem_erase hj (point_injective hx (sub_eq_zero.mp hzero)).symm
    have hyi := hy shares[i] (List.getElem_mem hi)
    simp only [index_ok hyi, ok_bind, gf256Div_ok _ hne, pure_eq, term, dif_pos hi]
    rw [hnum, hden]
    simp only [lagrangeTerm, List.getD_eq_getElem _ _ hyi, Fin.getElem_fin]
    rfl
  have sum : ∀ (l : List (Share × Nat)) (value : UInt8),
      l.foldl (fun value p => (⟨value⟩ + term p : Gf256).byte) value =
        (⟨value⟩ + (l.map term).sum : Gf256).byte := by
    intro l
    induction l with
    | nil => intro value; simp
    | cons p l ih =>
      intro value
      rw [List.foldl_cons, ih, List.map_cons, List.sum_cons, ← add_assoc]
  unfold interpolateByte
  rw [foldlM_eq_ok body, sum, zipIdx_map_eq_ofFn, List.sum_ofFn]
  congr 2
  refine (zero_add _).trans (Finset.sum_congr rfl fun i _ => ?_)
  exact dif_pos i.isLt

theorem duplicateX_eq_none (h : (shares.map (·.x)).Nodup) :
    duplicateX shares = none := by
  induction shares with
  | nil => rfl
  | cons share shares ih =>
    rw [List.map_cons, List.nodup_cons] at h
    have hnone : ¬ shares.any (·.x == share.x) = true := by
      intro hany
      obtain ⟨s, hs, hx⟩ := List.any_eq_true.mp hany
      exact h.1 (List.mem_map.mpr ⟨s, hs, beq_iff_eq.mp hx⟩)
    rw [duplicateX, if_neg hnone, ih h.2]

/-- **`combine` is Lagrange's formula at 0** on enough shares of equal length with distinct
nonzero points. -/
theorem combine_ok {threshold : UInt8} {n : Nat} (hne : shares ≠ [])
    (hcount : threshold ≤ UInt8.ofNat shares.length) (hy : ∀ s ∈ shares, s.y.length = n)
    (hx : (shares.map (·.x)).Nodup) (h0 : ∀ s ∈ shares, s.x ≠ 0) :
    combine shares threshold =
      .ok ((List.range n).map fun byteIdx => (∑ i, lagrangeTerm shares byteIdx i).byte) := by
  obtain ⟨first, rest, rfl⟩ := List.exists_cons_of_ne_nil hne
  have hfirst : first.y.length = n := hy first List.mem_cons_self
  have hlen : ¬ (first :: rest).any (·.y.length != first.y.length) = true := by
    rw [List.any_eq_true]
    rintro ⟨s, hs, hlen⟩
    rw [hfirst, hy s hs, bne_self_eq_false] at hlen
    exact Bool.false_ne_true hlen
  have hzero : ¬ (first :: rest).any (·.x == 0) = true := by
    rw [List.any_eq_true]
    rintro ⟨s, hs, hzero⟩
    exact h0 s hs (beq_iff_eq.mp hzero)
  have hbyte : ∀ i < n, interpolateByte (first :: rest) i =
      .ok (∑ j, lagrangeTerm (first :: rest) i j).byte := fun i hi =>
    interpolateByte_ok hx fun s hs => by rw [hy s hs]; exact hi
  simp only [combine, if_neg (UInt8.not_lt.mpr hcount), if_neg hlen, duplicateX_eq_none hx,
    if_neg hzero]
  rw [hfirst]
  exact foldlM_store 0 hbyte

/-! ## The shares of one split -/

theorem mem_points {total x : UInt8} (htotal : total.toNat ≤ 5) (hx : x ∈ points total) :
    x ≠ 0 := by
  obtain ⟨n, hn, rfl⟩ := List.mem_map.mp hx
  rw [List.mem_range'_1] at hn
  intro h
  have h' := congrArg UInt8.toNat h
  rw [UInt8.toNat_ofNat', Nat.mod_eq_of_lt (by omega)] at h'
  exact absurd h' (by simp; omega)

theorem length_points (total : UInt8) : (points total).length = total.toNat := by
  simp [points]

/-- Byte `byteIdx` of a share of a split. -/
theorem shareAt_getD {secret coeffs : Bytes} {count byteIdx : Nat} (h : byteIdx < secret.length)
    (x : UInt8) : (shareAt secret coeffs count x).y.getD byteIdx 0 =
      shareByte coeffs (byteIdx * count) count secret[byteIdx] x := by
  rw [List.getD_eq_getElem _ _ (by simpa [shareAt] using h)]
  simp [shareAt]

/-- Shares of one split with distinct, at least `count + 1` points interpolate to the secret. -/
theorem sum_lagrangeTerm {secret coeffs : Bytes} {count byteIdx : Nat} {l : List Share}
    (hl : ∀ s ∈ l, s = shareAt secret coeffs count s.x) (hx : (l.map (·.x)).Nodup)
    (hcount : count < l.length) (h : byteIdx < secret.length) :
    (∑ i, lagrangeTerm l byteIdx i).byte = secret[byteIdx] := by
  set p := dealPoly (⟨secret[byteIdx]⟩ : Gf256) (coeffsAt coeffs (byteIdx * count) count) with hp
  have hdeg : p.degree < (Finset.univ : Finset (Fin l.length)).card := by
    rw [Finset.card_univ, Fintype.card_fin]
    exact lt_of_lt_of_le (degree_dealPoly_lt _ _) (by exact_mod_cast hcount)
  have hterm : ∀ i : Fin l.length, lagrangeTerm l byteIdx i =
      p.eval ⟨l[i].x⟩ * ((∏ j ∈ Finset.univ.erase i, (0 - ⟨l[j].x⟩)) /
        ∏ j ∈ Finset.univ.erase i, (⟨l[i].x⟩ - ⟨l[j].x⟩)) := by
    intro i
    have hi : l[i].y.getD byteIdx 0 = (p.eval ⟨l[i].x⟩).byte := by
      rw [hl l[i] (List.getElem_mem _), shareAt_getD h, shareByte]
      rfl
    rw [lagrangeTerm, hi]
  have hsum := eval_zero_eq_lagrange (v := fun i : Fin l.length => (⟨l[i].x⟩ : Gf256))
    (point_injective hx).injOn hdeg
  rw [eval_zero_dealPoly] at hsum
  rw [Finset.sum_congr rfl fun i _ => hterm i, ← hsum]

/-- **Any `threshold` shares reconstruct.** Whatever the secret, the admitted parameters and the
coefficients drawn, every list of at least `threshold` distinct shares of the split, in any
order, is combined to exactly the secret. -/
theorem combine_split {secret : Bytes} (hs : secret ≠ []) {total threshold : UInt8}
    (hv : validateParams total threshold = .ok ()) (coeffs : Coeffs threshold secret.length) :
    ∃ shares, split secret total threshold (.ok coeffs.buffer) = .ok shares ∧
      shares.length = total.toNat ∧
      ∀ l : List Share, l.Nodup → l ⊆ shares → threshold.toNat ≤ l.length →
        combine l threshold = .ok secret := by
  obtain ⟨hk2, hkn, hn5⟩ := validateParams_ok hv
  refine ⟨_, split_ok hv hs coeffs.length_eq, by rw [List.length_map, length_points], ?_⟩
  intro l hnodup hsub hlen
  have hl : ∀ s ∈ l, s.x ∈ points total ∧
      s = shareAt secret coeffs.buffer (threshold.toNat - 1) s.x := by
    intro s hsl
    obtain ⟨x, hx, rfl⟩ := List.mem_map.mp (hsub hsl)
    exact ⟨hx, rfl⟩
  have hx : (l.map (·.x)).Nodup := by
    refine hnodup.map_on fun s hs t ht hst => ?_
    rw [(hl s hs).2, (hl t ht).2, hst]
  have hle : l.length ≤ 5 := by
    have hsubx : l.map (·.x) ⊆ points total := by
      intro x hxl
      obtain ⟨s, hsl, rfl⟩ := List.mem_map.mp hxl
      exact (hl s hsl).1
    have hle := (hx.subperm hsubx).length_le
    rw [List.length_map, length_points] at hle
    omega
  have hcount : threshold ≤ UInt8.ofNat l.length := by
    rw [UInt8.le_iff_toNat_le, UInt8.toNat_ofNat', Nat.mod_eq_of_lt (by omega)]
    exact hlen
  have hy : ∀ s ∈ l, s.y.length = secret.length := fun s hsl => by
    rw [(hl s hsl).2]
    simp [shareAt]
  rw [combine_ok (by rintro rfl; simp at hlen; omega) hcount hy hx fun s hsl =>
    mem_points hn5 (hl s hsl).1]
  congr 1
  apply List.ext_getElem
  · simp
  · intro i h1 h2
    rw [List.getElem_map, List.getElem_range]
    exact sum_lagrangeTerm (fun s hsl => (hl s hsl).2) hx (by omega) h2

theorem combine_split_two_of_three :
    ∃ shares, split [42] 3 2 (.ok [7]) = .ok shares ∧ shares.length = 3 ∧
      ∀ l : List Share, l.Nodup → l ⊆ shares → 2 ≤ l.length → combine l 2 = .ok [42] :=
  combine_split (by decide) (by decide) ⟨[7], rfl⟩

/-! ## Below the threshold -/

/-- Byte-wise addition of two buffers. -/
def xorBytes (a b : Bytes) : Bytes := List.zipWith gf256Add a b

theorem xorBytes_xorBytes {a b : Bytes} (h : a.length = b.length) :
    xorBytes (xorBytes a b) b = a := by
  apply List.ext_getElem
  · simp [xorBytes, h]
  · intro i _ _
    simp only [xorBytes, gf256Add, List.getElem_zipWith, UInt8.xor_assoc, UInt8.xor_self,
      UInt8.xor_zero]

/-- Adding a fixed buffer is a bijection of the draws. -/
def Coeffs.translate {threshold : UInt8} {n : Nat} (d : Coeffs threshold n) :
    Coeffs threshold n ≃ Coeffs threshold n :=
  Function.Involutive.toPerm
    (fun c => ⟨xorBytes c.buffer d.buffer, by simp [xorBytes, c.length_eq, d.length_eq]⟩)
    (fun c => Coeffs.ext (xorBytes_xorBytes (c.length_eq.trans d.length_eq.symm)))

theorem Coeffs.translate_buffer {threshold : UInt8} {n : Nat} (d c : Coeffs threshold n) :
    (d.translate c).buffer = xorBytes c.buffer d.buffer := rfl

/-- The buffer that turns a sharing of `secret` into one of `secret'` without moving the values
on `T`: one `hidingShift` per byte. -/
noncomputable def shiftBytes (T : Finset Gf256) (count : Nat) (secret secret' : Bytes) : Bytes :=
  (List.range (count * secret.length)).map fun m =>
    if h : m % count < count then
      (hidingShift count T ⟨secret.getD (m / count) 0⟩ ⟨secret'.getD (m / count) 0⟩
        ⟨m % count, h⟩).byte
    else 0

theorem coeffsAt_shift {T : Finset Gf256} {count byteIdx : Nat} {secret secret' coeffs : Bytes}
    (hc : coeffs.length = count * secret.length) (hb : byteIdx < secret.length) :
    coeffsAt (xorBytes coeffs (shiftBytes T count secret secret')) (byteIdx * count) count =
      coeffsAt coeffs (byteIdx * count) count +
        hidingShift count T ⟨secret.getD byteIdx 0⟩ ⟨secret'.getD byteIdx 0⟩ := by
  funext j
  have hpos : 0 < count := Nat.lt_of_le_of_lt (Nat.zero_le _) j.isLt
  have hidx : byteIdx * count + j < count * secret.length := by
    calc byteIdx * count + j < byteIdx * count + count := Nat.add_lt_add_left j.isLt _
      _ = (byteIdx + 1) * count := (Nat.succ_mul _ _).symm
      _ ≤ secret.length * count := Nat.mul_le_mul_right _ hb
      _ = count * secret.length := Nat.mul_comm _ _
  have hdiv : (byteIdx * count + j) / count = byteIdx := by
    rw [Nat.add_comm, Nat.add_mul_div_right _ _ hpos, Nat.div_eq_of_lt j.isLt, Nat.zero_add]
  have hmod : (byteIdx * count + j) % count = j := by
    rw [Nat.add_comm, Nat.add_mul_mod_self_right, Nat.mod_eq_of_lt j.isLt]
  have hlen : byteIdx * count + j <
      (xorBytes coeffs (shiftBytes T count secret secret')).length := by
    simp only [xorBytes, shiftBytes, List.length_zipWith, List.length_map, List.length_range, hc]
    omega
  simp only [coeffsAt, Pi.add_apply]
  rw [List.getD_eq_getElem _ _ hlen, List.getD_eq_getElem _ _ (by omega)]
  simp only [xorBytes, shiftBytes, List.getElem_zipWith, List.getElem_map, List.getElem_range,
    hmod, hdiv, j.isLt, dif_pos]
  rfl

/-- A share at a point of `T` is the same for `secret` and, after the shift, for `secret'`. -/
theorem shareAt_shift {T : Finset Gf256} {count : Nat} {secret secret' coeffs : Bytes}
    (h0 : (0 : Gf256) ∉ T) (hT : T.card ≤ count) (hlen : secret'.length = secret.length)
    (hc : coeffs.length = count * secret.length) {x : UInt8} (hx : ⟨x⟩ ∈ T) :
    shareAt secret' (xorBytes coeffs (shiftBytes T count secret secret')) count x =
      shareAt secret coeffs count x := by
  simp only [shareAt, Share.mk.injEq, true_and]
  apply List.ext_getElem
  · simp [hlen]
  · intro i h1 h2
    have hi : i < secret.length := by simpa using h2
    simp only [List.getElem_map, List.getElem_zipIdx, Nat.zero_add, shareByte]
    rw [coeffsAt_shift hc hi, List.getD_eq_getElem _ _ hi,
      List.getD_eq_getElem _ _ (show i < secret'.length by omega),
      eval_dealPoly_shift h0 hT _ _ _ hx]

theorem points_getElem? (total : UInt8) (i : Nat) :
    (points total)[i]? = if i < total.toNat then some (UInt8.ofNat (1 + i)) else none := by
  split
  · rename_i h
    rw [List.getElem?_eq_getElem (by rw [length_points]; exact h)]
    simp [points]
  · rename_i h
    exact List.getElem?_eq_none (by rw [length_points]; omega)

/-- The points of the shares at the indices `seen`. -/
def seenPoints (total : UInt8) (seen : Finset Nat) : Finset Gf256 :=
  (seen.filter (· < total.toNat)).image fun i => ⟨UInt8.ofNat (1 + i)⟩

theorem card_seenPoints (total : UInt8) (seen : Finset Nat) :
    (seenPoints total seen).card ≤ seen.card :=
  Finset.card_image_le.trans (Finset.card_filter_le _ _)

theorem zero_notMem_seenPoints (total : UInt8) (seen : Finset Nat) :
    (0 : Gf256) ∉ seenPoints total seen := by
  intro h
  obtain ⟨i, hi, h0⟩ := Finset.mem_image.mp h
  have hlt := (Finset.mem_filter.mp hi).2
  have htotal := total.toNat_lt
  have h' := congrArg (fun a : Gf256 => a.byte.toNat) h0
  simp only [UInt8.toNat_ofNat', Gf256.zero_byte] at h'
  rw [Nat.mod_eq_of_lt (by omega)] at h'
  exact absurd h' (by simp)

/-- A split that `validate_params` or the empty-secret check refuses. -/
theorem split_refused {secret : Bytes} (drawn : Except String Bytes)
    (h : validateParams total threshold ≠ .ok () ∨ secret = []) :
    split secret total threshold drawn = split [] total threshold (.ok []) := by
  rcases h with h | rfl
  · unfold split
    cases hv : validateParams total threshold with
    | ok u => exact absurd hv h
    | err e => rfl
    | panic p => rfl
  · rfl

/-- **Fewer than `threshold` shares carry no information.** For every two secrets of one length
and every set `seen` of fewer than `threshold` share indices, a bijection of the draws makes the
shares at those indices the same for the two secrets, byte for byte. -/
theorem split_hides {secret secret' : Bytes} (hlen : secret'.length = secret.length)
    {total threshold : UInt8} {seen : Finset Nat} (hseen : seen.card < threshold.toNat) :
    ∃ φ : Coeffs threshold secret.length ≃ Coeffs threshold secret.length, ∀ coeffs,
      (fun shares (i : seen) => shares[(i : Nat)]?) <$>
          split secret total threshold (.ok coeffs.buffer) =
        (fun shares (i : seen) => shares[(i : Nat)]?) <$>
          split secret' total threshold (.ok (φ coeffs).buffer) := by
  set T := seenPoints total seen with hT
  have hcard : T.card ≤ threshold.toNat - 1 := by
    have := card_seenPoints total seen
    rw [← hT] at this
    omega
  refine ⟨Coeffs.translate ⟨shiftBytes T (threshold.toNat - 1) secret secret',
    by simp [shiftBytes]⟩, fun coeffs => ?_⟩
  by_cases hrefused : validateParams total threshold ≠ .ok () ∨ secret = []
  · have hrefused' : validateParams total threshold ≠ .ok () ∨ secret' = [] :=
      hrefused.imp_right fun h => List.length_eq_zero_iff.mp (by rw [hlen, h, List.length_nil])
    rw [split_refused _ hrefused, split_refused _ hrefused']
  rw [not_or, not_ne_iff] at hrefused
  obtain ⟨hv, hs⟩ := hrefused
  have hs' : secret' ≠ [] := fun h =>
    hs (List.length_eq_zero_iff.mp (by rw [← hlen, h, List.length_nil]))
  have hc' := (Coeffs.translate ⟨shiftBytes T (threshold.toNat - 1) secret secret',
    by simp [shiftBytes]⟩ coeffs).length_eq
  rw [split_ok hv hs coeffs.length_eq, split_ok hv hs' (by rw [hlen]; exact hc'), map_ok, map_ok]
  refine congrArg Outcome.ok ?_
  funext i
  rw [List.getElem?_map, List.getElem?_map, points_getElem?]
  split
  · rename_i hi
    have hx : (⟨UInt8.ofNat (1 + i)⟩ : Gf256) ∈ T :=
      Finset.mem_image.mpr ⟨i, Finset.mem_filter.mpr ⟨i.2, hi⟩, rfl⟩
    rw [Option.map_some, Option.map_some, Coeffs.translate_buffer,
      shareAt_shift (zero_notMem_seenPoints total seen) hcard hlen coeffs.length_eq hx]
  · rw [Option.map_none, Option.map_none]

theorem split_hides_one_of_two :
    ∃ φ : Coeffs 2 1 ≃ Coeffs 2 1, ∀ coeffs,
      (fun shares (i : ({0} : Finset Nat)) => shares[(i : Nat)]?) <$>
          split [1] 3 2 (.ok coeffs.buffer) =
        (fun shares (i : ({0} : Finset Nat)) => shares[(i : Nat)]?) <$>
          split [2] 3 2 (.ok (φ coeffs).buffer) := by
  have hlen : ([2] : Bytes).length = ([1] : Bytes).length := rfl
  have hcard : ({0} : Finset Nat).card < (2 : UInt8).toNat := by decide
  exact split_hides hlen hcard

end Llamenos.Crypto.Shamir

import Llamenos.Crypto.Hpke
import Mathlib.Data.List.GetD

/-!
# Per-user keys and the rotation chain

Model of `packages/crypto/src/puk.rs`: subkeys, `create_initial_puk`, `rotate_puk` with its chain
link, `decrypt_clkr_link` and `generation_walk`. HMAC, the curve operations and AES-GCM are
parameters (`PukPrims`); what a call draws from the operating system's generator is an argument
(`Draws`). A `PukHistory` is what the account keeps from rotation to rotation: the current seed
and generation, and every chain link so far.

Each link is the old seed, sealed under a key derived from the new one, so the links lead from
the current seed back to any earlier one.

Results:
* `decryptClkrLink_encryptClkrLink`: a link opens under the key and the generation it was made for.
* `rotateStep_linked`, `rotateAll_linked`: rotations keep every link openable from the next seed.
* `generationWalk_linked`: on such a history the walk returns the seed of any generation.
* `generationWalk_rotateAll`: so it does after any number of rotations whose generations fit in
  `u32`.
* `rotateAll_generation`, `walk_lost_after_wrap`: one rotation more wraps the generation to 0, and
  no generation can be walked to.
-/

namespace Llamenos.Crypto.Puk

open Llamenos.Lib Llamenos.Lib.Outcome

/-! ## The code -/

/-- HMAC-SHA256, the public keys of the two curves, AES-256-GCM. -/
structure PukPrims where
  hmac : (key message : Bytes) → U8Array 32
  ed25519Public : U8Array 32 → U8Array 32
  x25519Public : U8Array 32 → U8Array 32
  aead : Aes256Gcm

/-- What one call draws: the new seed, the nonce of the link, and `hpke_seal` with the randomness
it takes. -/
structure Draws where
  seed : U8Array 32
  nonce : U8Array 12
  hpkeSeal : (plaintext : Bytes) → (recipientPubkeyHex label : String) → (aad : Bytes) →
    Call HpkeEnvelope

/-- `PukState`. -/
structure PukState where
  generation : UInt32
  signPubkeyHex : String
  dhPubkeyHex : String

/-- `DevicePukEnvelope`. -/
structure DevicePukEnvelope where
  deviceId : String
  envelope : HpkeEnvelope

/-- `RotatePukResult`. -/
structure RotatePukResult where
  state : PukState
  deviceEnvelopes : List DevicePukEnvelope
  clkrChainLinkHex : String

/-- `derive_subkey`. -/
def deriveSubkey (prims : PukPrims) (seed : U8Array 32) (label : String) (generation : UInt32) :
    U8Array 32 :=
  prims.hmac seed.bytes (asBytes label ++ toBe 4 generation.toNat)

/-- `derive_puk_subkeys`. -/
def derivePukSubkeys (prims : PukPrims) (seed : U8Array 32) (generation : UInt32) : PukState :=
  let signSeed := deriveSubkey prims seed "llamenos:puk:sign:v1" generation
  let dhSeed := deriveSubkey prims seed "llamenos:puk:dh:v1" generation
  { generation
    signPubkeyHex := hexEncode (prims.ed25519Public signSeed).bytes
    dhPubkeyHex := hexEncode (prims.x25519Public dhSeed).bytes }

/-- `derive_secretbox_key`. -/
def deriveSecretboxKey (prims : PukPrims) (seed : U8Array 32) (generation : UInt32) : U8Array 32 :=
  deriveSubkey prims seed "llamenos:puk:secretbox:v1" generation

/-- The sealing of a seed to one device, in `create_initial_puk` and `rotate_puk`. -/
def sealToDevice (draws : Draws) (deviceId pubkeyHex : String) : Call HpkeEnvelope :=
  let aad := s!"llamenos:puk:wrap:device:v1:{deviceId}"
  draws.hpkeSeal draws.seed.bytes pubkeyHex "llamenos:puk:wrap:device:v1" (asBytes aad)

/-- `create_initial_puk`. -/
def createInitialPuk (prims : PukPrims) (draws : Draws)
    (deviceEncryptionPubkeyHex deviceId : String) :
    Call (PukState × U8Array 32 × HpkeEnvelope) := do
  let state := derivePukSubkeys prims draws.seed 1
  let envelope ← sealToDevice draws deviceId deviceEncryptionPubkeyHex
  pure (state, draws.seed, envelope)

/-- The associated data of the link made for `generation`. -/
def linkAad (generation : UInt32) : Bytes := asBytes s!"llamenos:puk:prev-gen:v1:{generation}"

/-- `encrypt_clkr_link`. -/
def encryptClkrLink (prims : PukPrims) (draws : Draws) (oldSeed secretboxKey : U8Array 32)
    (generation : UInt32) : Call String := do
  let cipher ← mapErr .encryptionFailed (aes256GcmNew secretboxKey.bytes)
  let ciphertext ← mapErr .encryptionFailed
    (prims.aead.encrypt cipher draws.nonce oldSeed.bytes (linkAad generation))
  pure (hexEncode (draws.nonce.bytes ++ ciphertext))

/-- `rotate_puk`. -/
def rotatePuk (p : Profile) (prims : PukPrims) (draws : Draws) (oldSeed : U8Array 32)
    (oldGen : UInt32) (remainingDevices : List (String × String)) : Call RotatePukResult := do
  let newGen ← p.u32Add oldGen 1
  let state := derivePukSubkeys prims draws.seed newGen
  let secretboxKey := deriveSecretboxKey prims draws.seed newGen
  let clkrChainLinkHex ← encryptClkrLink prims draws oldSeed secretboxKey newGen
  let deviceEnvelopes ← remainingDevices.mapM fun (deviceId, pubkeyHex) => do
    let envelope ← sealToDevice draws deviceId pubkeyHex
    pure { deviceId, envelope : DevicePukEnvelope }
  pure { state, deviceEnvelopes, clkrChainLinkHex }

/-- `decrypt_clkr_link`. -/
def decryptClkrLink (prims : PukPrims) (chainLinkHex : String) (secretboxKey : U8Array 32)
    (generation : UInt32) : Call (U8Array 32) := do
  let data ← mapErr .hexError (hexDecode chainLinkHex)
  if data.length < 12 then .err .invalidCiphertext
  else do
    let nonceBytes ← slice data 0 12
    let nonce ← U8Array.fromSlice 12 nonceBytes
    let ciphertext ← slice data 12 data.length
    let cipher ← mapErr .encryptionFailed (aes256GcmNew secretboxKey.bytes)
    match prims.aead.decrypt cipher nonce ciphertext (linkAad generation) with
    | none => .err .decryptionFailed
    | some plaintext =>
      if plaintext.length ≠ 32 then
        .err (.invalidFormat "CLKR chain link must decrypt to 32 bytes")
      else U8Array.fromSlice 32 plaintext

/-- The loop of `generation_walk`. The last subtraction cannot underflow: `gen > target_gen`. -/
def walkLoop (p : Profile) (prims : PukPrims) (targetGen : UInt32) (chainLinks : List String)
    (seed : U8Array 32) (gen : UInt32) : Call (U8Array 32) :=
  if _h : targetGen < gen then do
    let linkIdx ← p.u32Sub gen 2
    if chainLinks.length ≤ linkIdx.toNat then
      .err (.invalidInput s!"missing CLKR chain link for generation {gen}")
    else do
      let secretboxKey := deriveSecretboxKey prims seed gen
      let chainLink ← index chainLinks linkIdx.toNat
      let oldSeed ← decryptClkrLink prims chainLink secretboxKey gen
      walkLoop p prims targetGen chainLinks oldSeed (gen - 1)
  else .ok seed
termination_by gen.toNat
decreasing_by
  have hlt := UInt32.lt_iff_toNat_lt.mp _h
  have hone : (1 : UInt32) ≤ gen := UInt32.le_iff_toNat_le.mpr (by
    show 1 ≤ gen.toNat
    omega)
  rw [UInt32.toNat_sub_of_le _ _ hone]
  show gen.toNat - 1 < gen.toNat
  omega

/-- `generation_walk`. -/
def generationWalk (p : Profile) (prims : PukPrims) (currentSeed : U8Array 32)
    (currentGen targetGen : UInt32) (chainLinks : List String) : Call (U8Array 32) :=
  if currentGen ≤ targetGen then
    if targetGen = currentGen then .ok currentSeed
    else .err (.invalidInput "target generation must be <= current generation")
  else walkLoop p prims targetGen chainLinks currentSeed currentGen

/-! ## Runs of rotations -/

/-- What an account keeps: `links[i]` leads from generation `i + 2` to `i + 1`. -/
structure PukHistory where
  seed : U8Array 32
  generation : UInt32
  links : List String
  deriving DecidableEq

/-- The account after `create_initial_puk`. -/
def PukHistory.initial (created : PukState × U8Array 32 × HpkeEnvelope) : PukHistory :=
  { seed := created.2.1, generation := created.1.generation, links := [] }

/-- One rotation of an account, and what it keeps of the result. -/
def rotateStep (p : Profile) (prims : PukPrims) (history : PukHistory)
    (rotation : Draws × List (String × String)) : Call PukHistory := do
  let result ← rotatePuk p prims rotation.1 history.seed history.generation rotation.2
  pure { seed := rotation.1.seed
         generation := result.state.generation
         links := history.links ++ [result.clkrChainLinkHex] }

/-- Successive rotations. -/
def rotateAll (p : Profile) (prims : PukPrims) (history : PukHistory)
    (rotations : List (Draws × List (String × String))) : Call PukHistory :=
  rotations.foldlM (rotateStep p prims) history

/-! ## One link -/

variable {p : Profile} {prims : PukPrims}

/-- **A link opens under the key and the generation it was made for.** -/
theorem decryptClkrLink_encryptClkrLink (hround : prims.aead.RoundTrips) {draws : Draws}
    {oldSeed key : U8Array 32} {generation : UInt32} {link : String}
    (h : encryptClkrLink prims draws oldSeed key generation = .ok link) :
    decryptClkrLink prims link key generation = .ok oldSeed := by
  unfold encryptClkrLink at h
  rw [aes256GcmNew_ok key.length_eq, mapErr_ok, ok_bind, bind_eq_ok] at h
  obtain ⟨ciphertext, hct, hlink⟩ := h
  rw [mapErr_eq_ok] at hct
  obtain rfl : hexEncode (draws.nonce.bytes ++ ciphertext) = link := by simpa using hlink
  have hn := draws.nonce.length_eq
  have htake : (draws.nonce.bytes ++ ciphertext).take 12 = draws.nonce.bytes :=
    List.take_left' hn
  have hdrop : (draws.nonce.bytes ++ ciphertext).drop 12 = ciphertext := List.drop_left' hn
  unfold decryptClkrLink
  rw [hexDecode_hexEncode, mapErr_ok, ok_bind, if_neg (by simp [hn]),
    slice_ok (Nat.zero_le _) (by simp [hn]), ok_bind, List.drop_zero, htake,
    U8Array.fromSlice_ok hn, ok_bind, slice_ok (by simp [hn]) (Nat.le_refl _), ok_bind,
    List.take_length, hdrop, aes256GcmNew_ok key.length_eq, mapErr_ok, ok_bind,
    hround _ _ _ _ _ hct]
  simp only [oldSeed.length_eq]
  exact U8Array.fromSlice_ok oldSeed.length_eq

/-! ## The history that rotations keep -/

/-- `seeds[g - 1]` is the seed of generation `g`, and each link opens from the next seed. -/
structure Linked (prims : PukPrims) (seeds : List (U8Array 32)) (history : PukHistory) :
    Prop where
  current : seeds[history.links.length]? = some history.seed
  length_eq : seeds.length = history.links.length + 1
  generation_eq : history.generation.toNat = seeds.length
  opens : ∀ (i : Nat) (link : String) (old new : U8Array 32) (gen : UInt32),
    history.links[i]? = some link → seeds[i]? = some old → seeds[i + 1]? = some new →
      gen.toNat = i + 2 →
      decryptClkrLink prims link (deriveSecretboxKey prims new gen) gen = .ok old

theorem initial_linked {draws : Draws} {pubkeyHex deviceId : String}
    {created : PukState × U8Array 32 × HpkeEnvelope}
    (h : createInitialPuk prims draws pubkeyHex deviceId = .ok created) :
    Linked prims [created.2.1] (PukHistory.initial created) := by
  unfold createInitialPuk at h
  obtain ⟨envelope, -, hcreated⟩ := bind_eq_ok.mp h
  obtain rfl : (derivePukSubkeys prims draws.seed 1, draws.seed, envelope) = created := by
    simpa using hcreated
  exact ⟨rfl, rfl, rfl, fun i link _ _ _ hlink => by simp [PukHistory.initial] at hlink⟩

/-- What one rotation does to the account. -/
theorem rotateStep_ok {history after : PukHistory} {rotation : Draws × List (String × String)}
    (h : rotateStep p prims history rotation = .ok after) :
    ∃ newGen link, p.u32Add history.generation 1 = .ok (ε := CryptoError) newGen ∧
      encryptClkrLink prims rotation.1 history.seed
        (deriveSecretboxKey prims rotation.1.seed newGen) newGen = .ok link ∧
      after = ⟨rotation.1.seed, newGen, history.links ++ [link]⟩ := by
  unfold rotateStep rotatePuk at h
  obtain ⟨result, hresult, hafter⟩ := bind_eq_ok.mp h
  obtain ⟨newGen, hgen, hresult⟩ := bind_eq_ok.mp hresult
  obtain ⟨link, hlink, hresult⟩ := bind_eq_ok.mp hresult
  obtain ⟨envelopes, -, hresult⟩ := bind_eq_ok.mp hresult
  refine ⟨newGen, link, hgen, hlink, ?_⟩
  injection hresult with hresult
  injection hafter with hafter
  rw [← hafter, ← hresult]
  rfl

variable {seeds : List (U8Array 32)}

/-- **One rotation keeps the links.** -/
theorem rotateStep_linked (hround : prims.aead.RoundTrips)
    {history after : PukHistory} {rotation : Draws × List (String × String)}
    (hl : Linked prims seeds history) (hfit : seeds.length + 1 < 2 ^ 32)
    (h : rotateStep p prims history rotation = .ok after) :
    Linked prims (seeds ++ [rotation.1.seed]) after := by
  obtain ⟨newGen, link, hgen, hlink, rfl⟩ := rotateStep_ok h
  have hlen := hl.length_eq
  have hgeneration : newGen.toNat = seeds.length + 1 := by
    have hadd : history.generation.toNat + (1 : UInt32).toNat < 2 ^ 32 := by
      rw [hl.generation_eq]
      exact hfit
    rw [Profile.u32Add_ok p hadd] at hgen
    injection hgen with hgen
    rw [← hgen, UInt32.toNat_add, Nat.mod_eq_of_lt hadd, hl.generation_eq]
    rfl
  refine ⟨?_, by simp [hlen], by simp [hgeneration], ?_⟩
  · rw [List.length_append, List.length_singleton, ← hlen, List.getElem?_concat_length]
  · intro i link' old new gen hlink' hold hnew hg
    by_cases hi : i < history.links.length
    · -- an older link, between older seeds
      rw [List.getElem?_append_left hi] at hlink'
      rw [List.getElem?_append_left (by omega)] at hold hnew
      exact hl.opens i link' old new gen hlink' hold hnew hg
    · -- the link just made
      have hi' : i = history.links.length := by
        have hlt := (List.getElem?_eq_some_iff.mp hlink').1
        simp only [List.length_append, List.length_singleton] at hlt
        omega
      subst hi'
      rw [List.getElem?_concat_length] at hlink'
      rw [List.getElem?_append_left (by omega), hl.current] at hold
      rw [← hlen, List.getElem?_concat_length] at hnew
      injection hlink' with hlink'
      injection hold with hold
      injection hnew with hnew
      have hgen' : gen = newGen := UInt32.toNat_inj.mp (by omega)
      rw [← hlink', ← hold, ← hnew, hgen']
      exact decryptClkrLink_encryptClkrLink hround hlink

/-- **Any number of rotations keeps the links**, while the generations fit. -/
theorem rotateAll_linked (hround : prims.aead.RoundTrips)
    {history final : PukHistory} {rotations : List (Draws × List (String × String))}
    (hl : Linked prims seeds history) (hfit : seeds.length + rotations.length < 2 ^ 32)
    (h : rotateAll p prims history rotations = .ok final) :
    Linked prims (seeds ++ rotations.map (·.1.seed)) final := by
  induction rotations generalizing seeds history with
  | nil =>
    obtain rfl : history = final := by simpa [rotateAll] using h
    simpa using hl
  | cons rotation rotations ih =>
    rw [rotateAll, List.foldlM_cons] at h
    obtain ⟨after, hstep, hrest⟩ := bind_eq_ok.mp h
    rw [List.length_cons] at hfit
    have hafter := rotateStep_linked hround hl (by omega) hstep
    have hfinal := ih hafter (by simp; omega) hrest
    simpa using hfinal

/-! ## The walk -/

/-- One iteration of the loop goes from a seed to the one before. -/
theorem walkLoop_step {history : PukHistory}
    (hl : Linked prims seeds history) {target gen : UInt32} (hlt : target < gen) {m : Nat}
    {seed : U8Array 32} (hgen : gen.toNat = m + 2) (hseed : seeds[m + 1]? = some seed) :
    ∃ older, seeds[m]? = some older ∧ (gen - 1).toNat = m + 1 ∧
      walkLoop p prims target history.links seed gen =
        walkLoop p prims target history.links older (gen - 1) := by
  have hseeds := (List.getElem?_eq_some_iff.mp hseed).1
  have hlen := hl.length_eq
  have hm : m < history.links.length := by omega
  have hold : seeds[m]? = some seeds[m] := List.getElem?_eq_getElem (by omega)
  have htwo : (2 : UInt32) ≤ gen := UInt32.le_iff_toNat_le.mpr (by
    show 2 ≤ gen.toNat
    omega)
  have hone : (1 : UInt32) ≤ gen := UInt32.le_iff_toNat_le.mpr (by
    show 1 ≤ gen.toNat
    omega)
  have hidx : (gen - 2).toNat = m := by
    rw [UInt32.toNat_sub_of_le _ _ htwo]
    show gen.toNat - 2 = m
    omega
  have hprev : (gen - 1).toNat = m + 1 := by
    rw [UInt32.toNat_sub_of_le _ _ hone]
    show gen.toNat - 1 = m + 1
    omega
  have hopen := hl.opens m history.links[m] seeds[m] seed gen (List.getElem?_eq_getElem hm) hold
    hseed hgen
  refine ⟨seeds[m], hold, hprev, ?_⟩
  rw [walkLoop, dif_pos hlt, Profile.u32Sub_ok p htwo, ok_bind, hidx, if_neg (by omega)]
  simp only [index_ok hm, ok_bind, hopen]

/-- From the seed of generation `m + 1`, the loop reaches every earlier one. -/
theorem walkLoop_linked {history : PukHistory}
    (hl : Linked prims seeds history) {target : UInt32} (htarget : 1 ≤ target.toNat) (m : Nat) :
    ∀ (gen : UInt32) (seed : U8Array 32), gen.toNat = m + 1 → seeds[m]? = some seed →
      target.toNat ≤ m + 1 →
      ∃ old, seeds[target.toNat - 1]? = some old ∧
        walkLoop p prims target history.links seed gen = .ok old := by
  induction m with
  | zero =>
    intro gen seed hgen hseed hle
    have hnot : ¬ target < gen := fun hlt => by
      have := UInt32.lt_iff_toNat_lt.mp hlt
      omega
    refine ⟨seed, ?_, ?_⟩
    · rw [show target.toNat - 1 = 0 by omega]
      exact hseed
    · rw [walkLoop, dif_neg hnot]
  | succ m ih =>
    intro gen seed hgen hseed hle
    by_cases hlt : target < gen
    · obtain ⟨older, hold, hprev, hstep⟩ := walkLoop_step hl hlt hgen hseed
      have hlt' := UInt32.lt_iff_toNat_lt.mp hlt
      rw [hstep]
      exact ih (gen - 1) older hprev hold (by omega)
    · have hge : ¬ target.toNat < gen.toNat := fun hc => hlt (UInt32.lt_iff_toNat_lt.mpr hc)
      refine ⟨seed, ?_, ?_⟩
      · rw [show target.toNat - 1 = m + 1 by omega]
        exact hseed
      · rw [walkLoop, dif_neg hlt]

/-- **On a linked history the walk returns the seed of any generation.** -/
theorem generationWalk_linked {history : PukHistory}
    (hl : Linked prims seeds history) {target : UInt32} (htarget : 1 ≤ target.toNat)
    (hle : target.toNat ≤ seeds.length) :
    ∃ seed, seeds[target.toNat - 1]? = some seed ∧
      generationWalk p prims history.seed history.generation target history.links = .ok seed := by
  have hgen := hl.generation_eq
  have hlen := hl.length_eq
  obtain ⟨old, hget, hwalk⟩ := walkLoop_linked (p := p) hl htarget history.links.length
    history.generation history.seed (by omega) hl.current (by omega)
  refine ⟨old, hget, ?_⟩
  unfold generationWalk
  by_cases hcur : history.generation ≤ target
  · have hnat := UInt32.le_iff_toNat_le.mp hcur
    have heq : target = history.generation := UInt32.toNat_inj.mp (by omega)
    rw [if_pos hcur, if_pos heq]
    rw [show target.toNat - 1 = history.links.length by omega, hl.current] at hget
    rw [Option.some.inj hget]
  · rw [if_neg hcur, hwalk]

/-- **After any number of rotations whose generations fit in `u32`, the walk returns the seed that
was current at any generation.** -/
theorem generationWalk_rotateAll (hround : prims.aead.RoundTrips) {draws : Draws}
    {pubkeyHex deviceId : String} {created : PukState × U8Array 32 × HpkeEnvelope}
    (hcreate : createInitialPuk prims draws pubkeyHex deviceId = .ok created)
    {rotations : List (Draws × List (String × String))} {final : PukHistory}
    (hrotate : rotateAll p prims (PukHistory.initial created) rotations = .ok final)
    (hfit : rotations.length + 1 < 2 ^ 32) {target : UInt32} (htarget : 1 ≤ target.toNat)
    (hle : target.toNat ≤ rotations.length + 1) :
    ∃ seed, (created.2.1 :: rotations.map (·.1.seed))[target.toNat - 1]? = some seed ∧
      generationWalk p prims final.seed final.generation target final.links = .ok seed := by
  have hlinked := rotateAll_linked hround (initial_linked hcreate)
    (by rw [List.length_singleton]; omega) hrotate
  exact generationWalk_linked hlinked htarget (by simp; omega)

/-- HMAC, the public keys and AES-GCM on one rotation, from the seed `01..01` to `02..02`. -/
def samplePrims : PukPrims where
  hmac key message := ([
    ((List.replicate 32 1, asBytes "llamenos:puk:sign:v1" ++ toBe 4 1),
      "489e289f3ef937dcc6043c07dc78c02b7e2fab82edee76387d551dcb7ca2a45d"),
    ((List.replicate 32 1, asBytes "llamenos:puk:dh:v1" ++ toBe 4 1),
      "587ec08fa3a2b75a075d0e2a167ae1d74e6d992054bbe3e554ec6dc6a4990f8b"),
    ((List.replicate 32 2, asBytes "llamenos:puk:sign:v1" ++ toBe 4 2),
      "838d986cfc8f39d9a87e02abdb74cffb7aaeff6080051a519942a9de306cf1e7"),
    ((List.replicate 32 2, asBytes "llamenos:puk:dh:v1" ++ toBe 4 2),
      "f451cdaf8369f7ade15c46321cb2c10ba6ca9aa8e56e07f536f71d5fc38a571c"),
    ((List.replicate 32 2, asBytes "llamenos:puk:secretbox:v1" ++ toBe 4 2),
      "303e8012249c3b1dcc0e382df77872687706353bc13ac87f6a38cc5fe66bb8f9")].lookup
        (key, message)).elim (U8Array.ofHex 32 "") (U8Array.ofHex 32)
  ed25519Public secret := ([
    (U8Array.ofHex 32 "489e289f3ef937dcc6043c07dc78c02b7e2fab82edee76387d551dcb7ca2a45d",
      "46608fff6c8f65a4101234b0f8fd26f3e3ce69fdb1df63d50e6345b10041b583"),
    (U8Array.ofHex 32 "838d986cfc8f39d9a87e02abdb74cffb7aaeff6080051a519942a9de306cf1e7",
      "9e65186beaff4c430342806580e5801d0109c721b828e2347f5039b6dd4e5462")].lookup secret).elim
        (U8Array.ofHex 32 "") (U8Array.ofHex 32)
  x25519Public secret := ([
    (U8Array.ofHex 32 "587ec08fa3a2b75a075d0e2a167ae1d74e6d992054bbe3e554ec6dc6a4990f8b",
      "1495a94bf5a371b24b72eabae3d756cece69c3bd40fa2733a86fad0af87c826a"),
    (U8Array.ofHex 32 "f451cdaf8369f7ade15c46321cb2c10ba6ca9aa8e56e07f536f71d5fc38a571c",
      "3e3f94cdc703fb9fb22196335a2ec17f944e1e08a1b009a47ebaddfde2312e11")].lookup secret).elim
        (U8Array.ofHex 32 "") (U8Array.ofHex 32)
  aead := Aes256Gcm.single
    (U8Array.ofHex 32 "303e8012249c3b1dcc0e382df77872687706353bc13ac87f6a38cc5fe66bb8f9")
    (U8Array.ofHex 12 "030303030303030303030303") (List.replicate 32 1)
    (asBytes "llamenos:puk:prev-gen:v1:2")
    (U8Array.ofHex 48 ("53e19f5a48c18dbab56ce5b34a9599a5c177d497dd1f7bbc" ++
      "3cb13edfa7b15ba42ab252e177c2c014cd3e8a9a81bcec25")).bytes

/-- The draws of one call, with the byte `b` for a seed. -/
def sampleDraws (b : UInt8) : Draws where
  seed := ⟨List.replicate 32 b, List.length_replicate ..⟩
  nonce := U8Array.ofHex 12 "030303030303030303030303"
  hpkeSeal _ _ _ _ := .ok ⟨3, 44, "", ""⟩

/-- What `create_initial_puk` returns for the seed `01..01`. -/
def sampleCreated : PukState × U8Array 32 × HpkeEnvelope :=
  (⟨1, "46608fff6c8f65a4101234b0f8fd26f3e3ce69fdb1df63d50e6345b10041b583",
    "1495a94bf5a371b24b72eabae3d756cece69c3bd40fa2733a86fad0af87c826a"⟩,
    (sampleDraws 1).seed, ⟨3, 44, "", ""⟩)

/-- The link that the rotation leaves: the nonce and the sealed seed. -/
def sampleLink : String := "030303030303030303030303" ++
  "53e19f5a48c18dbab56ce5b34a9599a5c177d497dd1f7bbc" ++
  "3cb13edfa7b15ba42ab252e177c2c014cd3e8a9a81bcec25"

theorem generationWalk_one_rotation :
    ∃ seed, [(sampleDraws 1).seed, (sampleDraws 2).seed][0]? = some seed ∧
      generationWalk ⟨true⟩ samplePrims (sampleDraws 2).seed 2 1 [sampleLink] = .ok seed := by
  have hcreate : createInitialPuk samplePrims (sampleDraws 1) "" "" = .ok sampleCreated := rfl
  have hrotate : rotateAll ⟨true⟩ samplePrims (PukHistory.initial sampleCreated)
      [(sampleDraws 2, [])] = .ok ⟨(sampleDraws 2).seed, 2, [sampleLink]⟩ := by decide +kernel
  have hround : samplePrims.aead.RoundTrips := Aes256Gcm.single_roundTrips _ _ _ _ _
  have hone : 1 ≤ (1 : UInt32).toNat := by decide
  exact generationWalk_rotateAll hround hcreate hrotate (by decide) hone (by decide)

/-! ## The last generation -/

/-- The code's answer to a target above the current generation. -/
theorem generationWalk_above {seed : U8Array 32} {currentGen targetGen : UInt32}
    (h : currentGen < targetGen) (links : List String) :
    generationWalk p prims seed currentGen targetGen links =
      .err (.invalidInput "target generation must be <= current generation") := by
  have hne : targetGen ≠ currentGen := fun heq => by
    rw [heq] at h
    exact UInt32.lt_irrefl _ h
  unfold generationWalk
  rw [if_pos (UInt32.le_of_lt h), if_neg hne]

/-- **Without overflow checks the generation wraps**: rotations that seal a seed and serve no
further device all go through, and count modulo `2^32`. -/
theorem rotateAll_generation
    (hseal : ∀ key nonce (seed : U8Array 32) aad,
      ∃ ciphertext, prims.aead.encrypt key nonce seed.bytes aad = .ok ciphertext)
    (history : PukHistory) (rotations : List (Draws × List (String × String)))
    (hdevices : ∀ r ∈ rotations, r.2 = []) :
    ∃ final, rotateAll ⟨false⟩ prims history rotations = .ok final ∧
      final.generation = history.generation + UInt32.ofNat rotations.length := by
  induction rotations generalizing history with
  | nil => exact ⟨history, rfl, (UInt32.add_zero _).symm⟩
  | cons rotation rotations ih =>
    have hadd : Profile.u32Add (ε := CryptoError) ⟨false⟩ history.generation 1 =
        .ok (history.generation + 1) := by
      unfold Profile.u32Add Profile.overflow
      split <;> rfl
    obtain ⟨ciphertext, hct⟩ := hseal
      (deriveSecretboxKey prims rotation.1.seed (history.generation + 1)) rotation.1.nonce
      history.seed (linkAad (history.generation + 1))
    have hlink : encryptClkrLink prims rotation.1 history.seed
        (deriveSecretboxKey prims rotation.1.seed (history.generation + 1))
        (history.generation + 1) = .ok (hexEncode (rotation.1.nonce.bytes ++ ciphertext)) := by
      unfold encryptClkrLink
      rw [aes256GcmNew_ok (U8Array.length_eq _), mapErr_ok, ok_bind, hct, mapErr_ok, ok_bind]
      rfl
    have hstep : rotateStep ⟨false⟩ prims history rotation =
        .ok ⟨rotation.1.seed, history.generation + 1,
          history.links ++ [hexEncode (rotation.1.nonce.bytes ++ ciphertext)]⟩ := by
      unfold rotateStep rotatePuk
      rw [hadd, ok_bind, hdevices rotation List.mem_cons_self]
      simp only [hlink, ok_bind, List.mapM_nil, pure_eq]
      rfl
    obtain ⟨final, hfinal, hgen⟩ := ih _ fun r hr => hdevices r (List.mem_cons_of_mem rotation hr)
    refine ⟨final, ?_, ?_⟩
    · rw [rotateAll, List.foldlM_cons, hstep, ok_bind]
      exact hfinal
    · rw [hgen, List.length_cons, UInt32.ofNat_add, UInt32.add_assoc,
        UInt32.add_comm (UInt32.ofNat rotations.length)]
      rfl

/-- An AEAD for 32-byte messages that hides nothing: the associated data, then the message. -/
def openAead : Aes256Gcm where
  encrypt _ _ msg aad := if msg.length = 32 then .ok (aad ++ msg) else .error "aead::Error"
  decrypt _ _ ciphertext aad :=
    if ciphertext.length = aad.length + 32 ∧ ciphertext.take aad.length = aad then
      some (ciphertext.drop aad.length)
    else none

theorem openAead_roundTrips : openAead.RoundTrips := by
  intro key nonce msg aad ciphertext h
  unfold openAead at h ⊢
  by_cases hlen : msg.length = 32
  · simp only [if_pos hlen, Except.ok.injEq] at h
    subst h
    simp [hlen]
  · simp only [if_neg hlen] at h
    cases h

theorem openAead_rejectsOtherAad : openAead.RejectsOtherAad := by
  intro key nonce msg aad ciphertext aad' h hne
  unfold openAead at h ⊢
  by_cases hlen : msg.length = 32
  · simp only [if_pos hlen, Except.ok.injEq] at h
    subst h
    refine if_neg ?_
    rintro ⟨hl, ht⟩
    have haad : aad.length = aad'.length := by
      rw [List.length_append] at hl
      omega
    rw [← haad, List.take_left] at ht
    exact hne ht.symm
  · simp only [if_neg hlen] at h
    cases h

def openPrims : PukPrims where
  hmac _ _ := U8Array.ofHex 32 ""
  ed25519Public secret := secret
  x25519Public secret := secret
  aead := openAead

/-- **The rotation after generation `2^32 - 1` loses every generation**: the new one is 0, and no
walk goes up from there. -/
theorem walk_lost_after_wrap :
    openPrims.aead.RoundTrips ∧ openPrims.aead.RejectsOtherAad ∧
    ∃ created final, createInitialPuk openPrims (sampleDraws 1) "" "" = .ok created ∧
      rotateAll ⟨false⟩ openPrims (PukHistory.initial created)
        (List.replicate (2 ^ 32 - 1) (sampleDraws 2, [])) = .ok final ∧
      generationWalk ⟨false⟩ openPrims final.seed final.generation 1 final.links =
        .err (.invalidInput "target generation must be <= current generation") := by
  have hseal : ∀ key nonce (seed : U8Array 32) aad, ∃ ciphertext,
      openPrims.aead.encrypt key nonce seed.bytes aad = .ok ciphertext :=
    fun key nonce seed aad => ⟨aad ++ seed.bytes, if_pos seed.length_eq⟩
  have hcreate : ∃ created, createInitialPuk openPrims (sampleDraws 1) "" "" = .ok created ∧
      created.1.generation = 1 := ⟨_, rfl, rfl⟩
  obtain ⟨created, hcreate, hone⟩ := hcreate
  obtain ⟨final, hfinal, hgen⟩ := rotateAll_generation hseal (PukHistory.initial created)
    (List.replicate (2 ^ 32 - 1) (sampleDraws 2, []))
    (fun r hr => by rw [List.eq_of_mem_replicate hr])
  refine ⟨openAead_roundTrips, openAead_rejectsOtherAad, created, final, hcreate, hfinal, ?_⟩
  have hzero : final.generation = 0 := by
    rw [hgen, List.length_replicate]
    show created.1.generation + _ = _
    rw [hone]
    decide
  refine generationWalk_above ?_ final.links
  rw [hzero]
  decide

end Llamenos.Crypto.Puk

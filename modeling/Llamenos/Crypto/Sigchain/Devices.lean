import Llamenos.Crypto.Sigchain

/-!
# Removed devices in an accepted chain

`verify_sigchain` keeps the active device keys as texts, while signatures are checked under the
decoded bytes. A `device_remove` takes out the key only in the spelling it names: the same bytes in
another spelling stay active.

The active keys before each link are a function of the chain alone (`activeAfter`), and every later
link of an accepted chain is signed by one of them (`signer_mem_activeAfter`). So what is left is
how one link changes them.

Results:
* `devicesAfter_out_iff`: a removal takes the bytes out of the active set exactly when no other
  spelling of them is active.
* `devicesAfter_out`: links that do not add the bytes keep them out.
* `removed_key_stays_out`: in a chain whose removals are spelled as the keys are held, a removed
  key signs no later link, unless it was added again in between.
* `removed_key_signs`: a chain that removes its only key in upper case and goes on.
-/

namespace Llamenos.Crypto.Sigchain

open Llamenos.Lib Llamenos.Lib.Outcome

variable {F : Type} {p : Profile} {prims : SigchainPrims F}

/-! ## The active keys along a chain -/

/-- The key that a link adds or removes. -/
def deviceOp (prims : SigchainPrims F) (op : String) (link : SigchainLink) : Option String :=
  match prims.fromStr link.payloadJson with
  | .ok payload =>
    if getStr payload "type" = some op then getStr payload "devicePubkey" else none
  | .error _ => none

/-- The key that a `device_add` names. -/
def adds (prims : SigchainPrims F) (link : SigchainLink) : Option String :=
  deviceOp prims "device_add" link

/-- The key that a `device_remove` names. -/
def removes (prims : SigchainPrims F) (link : SigchainLink) : Option String :=
  deviceOp prims "device_remove" link

/-- The active keys after a chain. -/
def activeAfter (prims : SigchainPrims F) : List SigchainLink → List String
  | [] => []
  | first :: rest => rest.foldl (devicesAfter prims) [first.signerPubkey]
variable {link : SigchainLink} {chain : List SigchainLink}

theorem activeAfter_take_succ {n : Nat}
    (hn : 1 ≤ n) (h : chain[n]? = some link) : activeAfter prims (chain.take (n + 1)) =
      devicesAfter prims (activeAfter prims (chain.take n)) link := by
  obtain ⟨m, rfl⟩ : ∃ m, n = m + 1 := ⟨n - 1, by omega⟩
  cases chain with
  | nil => cases h
  | cons first rest =>
    rw [List.getElem?_cons_succ] at h
    rw [List.take_succ_cons, List.take_succ_cons, List.take_add_one, h]
    exact List.foldl_concat ..

/-- The loop holds the active keys of the links it has seen. -/
theorem activePubkeys_eq {first : SigchainLink} {rest : List SigchainLink}
    {state state' : VerifierState} (hfirst : verifyFirst prims first = .ok state)
    (hrest : rest.foldlM (verifyNext p prims) state = .ok state') :
    state'.activePubkeys = activeAfter prims (first :: rest) := by
  obtain ⟨-, -, -, rfl⟩ := verifyFirst_ok hfirst
  refine foldlM_ok_inv (fun done state => state.activePubkeys =
    activeAfter prims (first :: done)) hrest rfl ?_
  intro done link s t hs hnext
  obtain ⟨-, -, -, rfl⟩ := verifyNext_ok hnext
  show devicesAfter prims s.activePubkeys link = _
  rw [hs]
  exact (List.foldl_concat ..).symm

/-- **A later link of an accepted chain is signed by an active key.** -/
theorem signer_mem_activeAfter {verified : SigchainVerifiedState}
    (h : verifySigchain p prims chain = .ok verified) {n : Nat}
    (hn : 1 ≤ n) (hlink : chain[n]? = some link) :
    link.signerPubkey ∈ activeAfter prims (chain.take n) := by
  obtain ⟨m, rfl⟩ : ∃ m, n = m + 1 := ⟨n - 1, by omega⟩
  obtain ⟨first, rest, state, state', rfl, hfirst, hrest, -⟩ := verifySigchain_ok h
  rw [List.getElem?_cons_succ] at hlink
  have hsplit : rest = rest.take m ++ link :: rest.drop (m + 1) := by
    obtain ⟨hm, hget⟩ := List.getElem?_eq_some_iff.mp hlink
    rw [← hget, ← List.drop_eq_getElem_cons hm, List.take_append_drop]
  rw [hsplit] at hrest
  obtain ⟨s₁, s₂, hbefore, hnext, -⟩ := foldlM_ok_split hrest
  obtain ⟨-, hmem, -⟩ := verifyNext_ok hnext
  rw [activePubkeys_eq hfirst hbefore] at hmem
  exact hmem

/-- The first link is a `user_init`: it removes no device. -/
theorem removes_first {first : SigchainLink} {rest : List SigchainLink}
    {verified : SigchainVerifiedState}
    (h : verifySigchain p prims (first :: rest) = .ok verified) : removes prims first = none := by
  obtain ⟨first', rest', state, state', hchain, hfirst, -⟩ := verifySigchain_ok h
  obtain ⟨rfl, rfl⟩ := List.cons.inj hchain
  obtain ⟨-, -, ⟨payload, pubkey, hverified, htype⟩, -⟩ := verifyFirst_ok hfirst
  unfold removes deviceOp
  rw [hverified.payload_eq]
  simp [htype]

/-! ## One link -/

/-- No active spelling decodes to these bytes. -/
def Out (key : Bytes) (active : List String) : Prop := ∀ a ∈ active, hexDecode a ≠ .ok key

/-- What a link makes of the active keys. -/
theorem devicesAfter_cases (prims : SigchainPrims F) (active : List String)
    (link : SigchainLink) :
    (∃ key, adds prims link = some key ∧ removes prims link = none ∧
      devicesAfter prims active link =
        if active.contains key then active else active ++ [key]) ∨
    (∃ key, removes prims link = some key ∧ adds prims link = none ∧
      devicesAfter prims active link = active.filter (· != key)) ∨
    (adds prims link = none ∧ removes prims link = none ∧
      devicesAfter prims active link = active) := by
  unfold adds removes deviceOp devicesAfter
  cases hparse : prims.fromStr link.payloadJson with
  | error e => exact .inr (.inr ⟨rfl, rfl, rfl⟩)
  | ok payload =>
    dsimp only
    unfold updateDevices
    by_cases hadd : getStr payload "type" = some "device_add"
    · have hremove : getStr payload "type" ≠ some "device_remove" := by
        rw [hadd]
        decide
      rw [if_pos hadd, if_pos hadd, if_neg hremove]
      cases hkey : getStr payload "devicePubkey" with
      | none => exact .inr (.inr ⟨rfl, rfl, rfl⟩)
      | some key => exact .inl ⟨key, rfl, rfl, rfl⟩
    · rw [if_neg hadd, if_neg hadd]
      by_cases hremove : getStr payload "type" = some "device_remove"
      · rw [if_pos hremove, if_pos hremove]
        cases hkey : getStr payload "devicePubkey" with
        | none => exact .inr (.inr ⟨rfl, rfl, rfl⟩)
        | some key => exact .inr (.inl ⟨key, rfl, rfl, rfl⟩)
      · rw [if_neg hremove, if_neg hremove]
        exact .inr (.inr ⟨rfl, rfl, rfl⟩)

/-- **A removal takes the bytes out exactly when no other spelling of them is active.** -/
theorem devicesAfter_out_iff {active : List String} {key : String}
    (hremoves : removes prims link = some key) (bytes : Bytes) :
    Out bytes (devicesAfter prims active link) ↔
      ∀ a ∈ active, hexDecode a = .ok bytes → a = key := by
  have hafter : devicesAfter prims active link = active.filter (· != key) := by
    obtain ⟨k, -, hnone, -⟩ | ⟨k, hsome, -, hafter⟩ | ⟨-, hnone, -⟩ :=
      devicesAfter_cases prims active link
    · rw [hremoves] at hnone
      cases hnone
    · rw [hremoves] at hsome
      obtain rfl := Option.some.inj hsome
      exact hafter
    · rw [hremoves] at hnone
      cases hnone
  rw [hafter]
  constructor
  · intro hout a ha hdecode
    by_contra hne
    exact hout a (List.mem_filter.mpr ⟨ha, by simpa using hne⟩) hdecode
  · intro hspell a ha hdecode
    obtain ⟨hmem, hne⟩ := List.mem_filter.mp ha
    exact absurd (hspell a hmem hdecode) (by simpa using hne)

/-- A link that does not add the bytes keeps them out. -/
theorem devicesAfter_out {active : List String} {bytes : Bytes}
    (hout : Out bytes active)
    (hadds : ∀ key, adds prims link = some key → hexDecode key ≠ .ok bytes) :
    Out bytes (devicesAfter prims active link) := by
  obtain ⟨key, hsome, -, hafter⟩ | ⟨key, -, -, hafter⟩ | ⟨-, -, hafter⟩ :=
    devicesAfter_cases prims active link
  · rw [hafter]
    split
    · exact hout
    · intro a ha
      rcases List.mem_append.mp ha with ha | ha
      · exact hout a ha
      · rw [List.mem_singleton.mp ha]
        exact hadds key hsome
  · rw [hafter]
    exact fun a ha => hout a (List.mem_filter.mp ha).1
  · rw [hafter]
    exact hout

/-! ## Whole chains -/

/-- Every removal in the chain names its key as it is spelled in the active set: no other spelling
of the same bytes is active at that link. -/
def RemovalsSpelledAsHeld (prims : SigchainPrims F) (chain : List SigchainLink) : Prop :=
  ∀ (n : Nat) (link : SigchainLink) (key : String) (bytes : Bytes), chain[n]? = some link →
    removes prims link = some key → hexDecode key = .ok bytes →
      ∀ a ∈ activeAfter prims (chain.take n), hexDecode a = .ok bytes → a = key

/-- Out of the active set at one link, out until a link adds the bytes. -/
theorem activeAfter_out {bytes : Bytes} {n : Nat} (hn : 1 ≤ n)
    (hout : Out bytes (activeAfter prims (chain.take n))) (k : Nat)
    (hadds : ∀ m link key, n ≤ m → m < n + k → chain[m]? = some link →
      adds prims link = some key → hexDecode key ≠ .ok bytes) :
    Out bytes (activeAfter prims (chain.take (n + k))) := by
  induction k with
  | zero => exact hout
  | succ k ih =>
    have hprev := ih fun m link key hm hlt => hadds m link key hm (by omega)
    cases hlink : chain[n + k]? with
    | none =>
      have hlen := List.getElem?_eq_none_iff.mp hlink
      rw [List.take_of_length_le (by omega)]
      rwa [List.take_of_length_le hlen] at hprev
    | some link =>
      rw [← Nat.add_assoc, activeAfter_take_succ (by omega) hlink]
      exact devicesAfter_out hprev fun key hkey =>
        hadds (n + k) link key (by omega) (by omega) hlink hkey

/-- **Where removals are spelled as the keys are held, a removed key signs no later link**, unless
its bytes were added again in between. -/
theorem removed_key_stays_out {chain : List SigchainLink} {verified : SigchainVerifiedState}
    (h : verifySigchain p prims chain = .ok verified)
    (hspelled : RemovalsSpelledAsHeld prims chain) {i j : Nat} {removal later : SigchainLink}
    {key : String} {bytes : Bytes} (hi : chain[i]? = some removal)
    (hremoves : removes prims removal = some key) (hkey : hexDecode key = .ok bytes) (hij : i < j)
    (hj : chain[j]? = some later) (hsigner : hexDecode later.signerPubkey = .ok bytes) :
    ∃ m link added, i < m ∧ m < j ∧ chain[m]? = some link ∧ adds prims link = some added ∧
      hexDecode added = .ok bytes := by
  by_contra hnone
  have hpos : 1 ≤ i := by
    by_contra hi0
    obtain ⟨first, rest, -, -, rfl, -⟩ := verifySigchain_ok h
    obtain rfl : i = 0 := by omega
    rw [List.getElem?_cons_zero, Option.some.injEq] at hi
    rw [← hi, removes_first h] at hremoves
    cases hremoves
  have hremoved : Out bytes (activeAfter prims (chain.take (i + 1))) := by
    rw [activeAfter_take_succ hpos hi, devicesAfter_out_iff hremoves]
    exact hspelled i removal key bytes hi hremoves hkey
  have hout := activeAfter_out (Nat.le_add_left 1 i) hremoved (j - (i + 1))
    fun m link added hm hlt hlink hadd hdecode =>
      hnone ⟨m, link, added, by omega, by omega, hlink, hadd, hdecode⟩
  rw [show i + 1 + (j - (i + 1)) = j by omega] at hout
  exact hout _ (signer_mem_activeAfter h (by omega) hj) hsigner

/-- The second sample device is removed, added and signs. -/
def sampleChain : List SigchainLink := [sampleInit, sampleRemove, sampleAdd, sampleAdded]

theorem sampleChain_spelled : RemovalsSpelledAsHeld samplePrims sampleChain := by
  have hinit : removes samplePrims sampleInit = none := by decide +kernel
  have hremove : removes samplePrims sampleRemove = some sampleKey₂ := by decide +kernel
  have hadd : removes samplePrims sampleAdd = none := by decide +kernel
  have hadded : removes samplePrims sampleAdded = none := by decide +kernel
  have hother : hexDecode sampleKey ≠ hexDecode sampleKey₂ := by decide +kernel
  intro n link key bytes hlink hremoves hkey a ha hdecode
  rcases n with _ | _ | _ | _ | n
  · obtain rfl : sampleInit = link := Option.some.inj hlink
    rw [hinit] at hremoves
    cases hremoves
  · obtain rfl : sampleRemove = link := Option.some.inj hlink
    rw [hremove] at hremoves
    obtain rfl := Option.some.inj hremoves
    obtain rfl : a = sampleKey := List.mem_singleton.mp ha
    exact absurd (hdecode.trans hkey.symm) hother
  · obtain rfl : sampleAdd = link := Option.some.inj hlink
    rw [hadd] at hremoves
    cases hremoves
  · obtain rfl : sampleAdded = link := Option.some.inj hlink
    rw [hadded] at hremoves
    cases hremoves
  · cases hlink

theorem sampleChain_added_again :
    ∃ m link added, 1 < m ∧ m < 3 ∧ sampleChain[m]? = some link ∧
      adds samplePrims link = some added ∧
      hexDecode added = .ok (U8Array.ofHex 32 sampleKey₂).bytes := by
  have h : verifySigchain ⟨true⟩ samplePrims sampleChain =
      .ok ⟨4, 4, sampleAdded.entryHash, [sampleKey, sampleKey₂]⟩ := by decide +kernel
  have hi : sampleChain[1]? = some sampleRemove := rfl
  have hj : sampleChain[3]? = some sampleAdded := rfl
  have hremoves : removes samplePrims sampleRemove = some sampleKey₂ := by decide +kernel
  have hkey : hexDecode sampleKey₂ = .ok (U8Array.ofHex 32 sampleKey₂).bytes := by decide +kernel
  exact removed_key_stays_out h sampleChain_spelled hi hremoves hkey (by decide) hj hkey

/-- **A chain that removes its only key, in upper case, and goes on under it.** The removed key is
still active at the end. -/
theorem removed_key_signs :
    verifySigchain ⟨true⟩ samplePrims [sampleInit, sampleRemoveUpper, sampleAfterRemove] =
      .ok ⟨3, 3, sampleAfterRemove.entryHash, [sampleKey]⟩ ∧
    removes samplePrims sampleRemoveUpper = some sampleKeyUpper ∧
    hexDecode sampleKeyUpper = .ok (U8Array.ofHex 32 sampleKey).bytes ∧
    hexDecode sampleAfterRemove.signerPubkey = .ok (U8Array.ofHex 32 sampleKey).bytes ∧
    ¬ ∃ m, 1 < m ∧ m < 2 := by
  refine ⟨?_, ?_, ?_, ?_, by omega⟩ <;> decide +kernel

end Llamenos.Crypto.Sigchain

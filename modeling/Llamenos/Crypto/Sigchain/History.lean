import Llamenos.Crypto.Sigchain
import Llamenos.Lib.HashChain

/-!
# The head hash commits to the history

An accepted chain is a hash chain: each link records the entry hash of the one before it, and its
own entry hash is SHA-256 of a canonical text of all its fields. That text determines the fields,
so where SHA-256 does not collide on the texts that were hashed, equal entry hashes belong to equal
entries, and the entry hash of the last link to one history.

Hashes are compared as bytes: two spellings of one hash link alike.

Results:
* `same_of_entryHash`: equal entry hashes of verified links belong to equal fields.
* `linked_of_accepted`: an accepted chain is a hash chain, newest link first.
* `history_of_head`: accepted chains with equal head hashes agree link by link.
-/

namespace Llamenos.Crypto.Sigchain

open Llamenos.Lib Llamenos.Lib.Outcome

variable {F : Type} {p : Profile} {prims : SigchainPrims F}

/-- The bytes that are hashed for a link. -/
def hashedBytes (prims : SigchainPrims F) (link : SigchainLink) : Option Bytes :=
  match prims.fromStr link.payloadJson with
  | .ok payload => some (toBytes prims.floatText (canonical payload link.prevHash link.seq
      link.signerDeviceId link.signerPubkey link.timestamp))
  | .error _ => none

/-- All that is hashed for some chains. -/
def hashedIn (prims : SigchainPrims F) (links : List SigchainLink) : Set Bytes :=
  {bytes | ∃ link ∈ links, hashedBytes prims link = some bytes}

/-- Two links that say the same: number, previous hash, time, signer and payload value. -/
structure SameEntry (prims : SigchainPrims F) (a b : SigchainLink) : Prop where
  seq : a.seq = b.seq
  prevHash : a.prevHash = b.prevHash
  timestamp : a.timestamp = b.timestamp
  signerDeviceId : a.signerDeviceId = b.signerDeviceId
  signerPubkey : a.signerPubkey = b.signerPubkey
  payload : ∃ value, prims.fromStr a.payloadJson = .ok value ∧
    prims.fromStr b.payloadJson = .ok value

/-- **Equal entry hashes belong to equal entries**, where SHA-256 does not collide. -/
theorem same_of_entryHash {links : List SigchainLink}
    (hinj : Set.InjOn prims.sha256 (hashedIn prims links)) {a b : SigchainLink}
    {payload payload' : Value F} {pubkey pubkey' : U8Array 32}
    (ha : Verified prims a payload pubkey) (hb : Verified prims b payload' pubkey')
    (hamem : a ∈ links) (hbmem : b ∈ links)
    (hhash : hexDecode a.entryHash = hexDecode b.entryHash) : SameEntry prims a b := by
  have hbytes : ∀ {link : SigchainLink} {value : Value F}, link ∈ links →
      prims.fromStr link.payloadJson = .ok value →
      toBytes prims.floatText (canonical value link.prevHash link.seq link.signerDeviceId
        link.signerPubkey link.timestamp) ∈ hashedIn prims links := by
    intro link value hmem hvalue
    exact ⟨link, hmem, by rw [hashedBytes, hvalue]⟩
  rw [ha.hash_eq, hb.hash_eq] at hhash
  have hdigest := U8Array.ext' (Except.ok.inj hhash)
  have htext := hinj (hbytes hamem ha.payload_eq) (hbytes hbmem hb.payload_eq) hdigest
  obtain ⟨rfl, hprev, hseq, hdevice, hsigner, htime⟩ :=
    canonical_inj (toBytes_injective prims.floatText htext)
  exact ⟨hseq, hprev, htime, hdevice, hsigner, payload, ha.payload_eq, hb.payload_eq⟩

/-! ## Accepted chains -/

/-- The decoded entry hash of a link. -/
def digest (link : SigchainLink) : Except FromHexError Bytes := hexDecode link.entryHash

/-- The decoded hash that a link records of the one before it. -/
def parent (link : SigchainLink) : Option (Except FromHexError Bytes) :=
  link.prevHash.map hexDecode

/-- **An accepted chain is a hash chain of verified links.** -/
theorem linked_of_accepted {chain : List SigchainLink} {verified : SigchainVerifiedState}
    (h : verifySigchain p prims chain = .ok verified) :
    HashChain.Linked parent digest chain.reverse ∧
      ∀ link ∈ chain, ∃ payload pubkey, Verified prims link payload pubkey := by
  obtain ⟨first, rest, state, state', rfl, hfirst, hrest, -⟩ := verifySigchain_ok h
  obtain ⟨-, hnone, ⟨payload, pubkey, hverified, -⟩, rfl⟩ := verifyFirst_ok hfirst
  -- the loop holds the hash of the newest link of a hash chain of verified links
  have hloop := foldlM_ok_inv (fun done (state : VerifierState) =>
    (∃ newest older, (first :: done).reverse = newest :: older ∧
      state.prevHash = newest.entryHash ∧
      HashChain.Linked parent digest (newest :: older)) ∧
    ∀ link ∈ first :: done, ∃ payload pubkey, Verified prims link payload pubkey) hrest
    ⟨⟨first, [], rfl, rfl, .genesis (by rw [parent, hnone]; rfl)⟩, by
      intro link hlink
      rw [List.mem_singleton.mp hlink]
      exact ⟨payload, pubkey, hverified⟩⟩
    (by
      rintro done link s t ⟨⟨newest, older, hrev, hprev, hlinked⟩, hall⟩ hnext
      obtain ⟨⟨ph, hph, heq⟩, -, hlink, rfl⟩ := verifyNext_ok hnext
      obtain ⟨bytes, hdecode, hlast⟩ := ctHexEq_iff.mp heq
      rw [hprev] at hlast
      refine ⟨⟨link, newest :: older, ?_, rfl, .next ?_ hlinked⟩, ?_⟩
      · rw [← List.cons_append, List.reverse_concat, hrev]
      · rw [parent, hph, digest, hlast, Option.map_some, hdecode]
      · intro l hl
        rw [← List.cons_append] at hl
        rcases List.mem_append.mp hl with hl | hl
        · exact hall l hl
        · rw [List.mem_singleton.mp hl]
          exact hlink)
  obtain ⟨⟨newest, older, hrev, -, hlinked⟩, hall⟩ := hloop
  exact ⟨hrev ▸ hlinked, hall⟩

/-- **Accepted chains with equal head hashes agree link by link**, where SHA-256 does not collide
on what was hashed for them. -/
theorem history_of_head {chain chain' : List SigchainLink}
    {verified verified' : SigchainVerifiedState} (h : verifySigchain p prims chain = .ok verified)
    (h' : verifySigchain p prims chain' = .ok verified')
    (hinj : Set.InjOn prims.sha256 (hashedIn prims (chain ++ chain'))) {last last' : SigchainLink}
    (hlast : chain.getLast? = some last) (hlast' : chain'.getLast? = some last')
    (hhead : hexDecode last.entryHash = hexDecode last'.entryHash) :
    chain.length = chain'.length ∧ List.Forall₂ (SameEntry prims) chain chain' := by
  obtain ⟨hlinked, hall⟩ := linked_of_accepted h
  obtain ⟨hlinked', hall'⟩ := linked_of_accepted h'
  obtain ⟨before, rfl⟩ := List.getLast?_eq_some_iff.mp hlast
  obtain ⟨before', rfl⟩ := List.getLast?_eq_some_iff.mp hlast'
  rw [List.reverse_concat] at hlinked hlinked'
  have hsame : List.Forall₂ (SameEntry prims) (last :: before.reverse)
      (last' :: before'.reverse) := hlinked.forall₂_of_head hlinked'
    (fun a ha b hb hab => by
      have hmem : a ∈ before ++ [last] := by simpa [or_comm] using ha
      have hmem' : b ∈ before' ++ [last'] := by simpa [or_comm] using hb
      obtain ⟨payload, pubkey, hva⟩ := hall a hmem
      obtain ⟨payload', pubkey', hvb⟩ := hall' b hmem'
      exact same_of_entryHash hinj hva hvb (List.mem_append_left _ hmem)
        (List.mem_append_right _ hmem') hab)
    (fun a b hab => by rw [parent, parent, hab.prevHash]) hhead
  rw [← List.reverse_concat, ← List.reverse_concat] at hsame
  have hforall := List.forall₂_reverse_iff.mp hsame
  exact ⟨hforall.length_eq, hforall⟩

/-- A sample link with its entry hash in upper case. -/
def sampleRemoveShouted : SigchainLink :=
  { sampleRemoveUpper with
    entryHash := "1B64127D823CEC4D3017E07CD9FB49A344B1BCF3213418512EA5D75DE76A118C" }

theorem hashedBytes_sample {link : SigchainLink} {bytes : Bytes}
    (h : hashedBytes samplePrims link = some bytes) : bytes = sampleHashed link := by
  unfold hashedBytes samplePrims at h
  unfold sampleHashed
  cases hparse : sampleFromStr link.payloadJson with
  | error e =>
    simp only [hparse] at h
    cases h
  | ok payload =>
    simp only [hparse] at h
    exact (Option.some.inj h).symm

theorem sample_injOn : Set.InjOn samplePrims.sha256 (hashedIn samplePrims
    ([sampleInit, sampleRemoveUpper] ++ [sampleInit, sampleRemoveShouted])) := by
  have hne : samplePrims.sha256 (sampleHashed sampleInit) ≠
      samplePrims.sha256 (sampleHashed sampleRemoveUpper) := by decide +kernel
  have htexts : ∀ x ∈ hashedIn samplePrims
      ([sampleInit, sampleRemoveUpper] ++ [sampleInit, sampleRemoveShouted]),
      x = sampleHashed sampleInit ∨ x = sampleHashed sampleRemoveUpper := by
    rintro x ⟨link, hlink, hx⟩
    rw [hashedBytes_sample hx]
    simp only [List.cons_append, List.nil_append, List.mem_cons, List.not_mem_nil, or_false]
      at hlink
    obtain rfl | rfl | rfl | rfl := hlink
    · exact .inl rfl
    · exact .inr rfl
    · exact .inl rfl
    · exact .inr rfl
  intro x hx y hy hxy
  obtain rfl | rfl := htexts x hx
  · obtain rfl | rfl := htexts y hy
    · rfl
    · exact absurd hxy hne
  · obtain rfl | rfl := htexts y hy
    · exact absurd hxy.symm hne
    · rfl

theorem sample_history : [sampleInit, sampleRemoveUpper].length =
      [sampleInit, sampleRemoveShouted].length ∧
    List.Forall₂ (SameEntry samplePrims) [sampleInit, sampleRemoveUpper]
      [sampleInit, sampleRemoveShouted] := by
  have h : verifySigchain ⟨true⟩ samplePrims [sampleInit, sampleRemoveUpper] =
      .ok ⟨2, 2, sampleRemoveUpper.entryHash, [sampleKey]⟩ := by decide +kernel
  have h' : verifySigchain ⟨true⟩ samplePrims [sampleInit, sampleRemoveShouted] =
      .ok ⟨2, 2, sampleRemoveShouted.entryHash, [sampleKey]⟩ := by decide +kernel
  have hhead : hexDecode sampleRemoveUpper.entryHash =
      hexDecode sampleRemoveShouted.entryHash := by decide +kernel
  exact history_of_head h h' sample_injOn rfl rfl hhead

end Llamenos.Crypto.Sigchain

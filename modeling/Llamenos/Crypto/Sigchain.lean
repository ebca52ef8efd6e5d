import Llamenos.Crypto.Primitives
import Llamenos.Lib.Json

/-!
# The sigchain verifier

Model of `packages/crypto/src/sigchain.rs`: the canonical text and hash of an entry
(`compute_entry_hash`), `create_sigchain_link`, `verify_sigchain_link` and `verify_sigchain`, with
`ct_hex_eq` of the crate. SHA-256, Ed25519, `serde_json::from_str` and the text of a float are
parameters (`SigchainPrims`).

The loop of `verify_sigchain` is `verifyNext`, over the active device keys and the hash and number
of the last link. What it checks of a link, and what it does to the active keys, are one lemma each.

Results:
* `numberText_unambiguous`: numbers are told apart by their texts.
* `ctHexEq_iff`: the comparison is of the decoded bytes.
* `verifySigchainLink_true`: what a verified link satisfies.
* `verifyFirst_ok`, `verifyNext_ok`, `verifySigchain_ok`: what an accepted chain satisfies, first
  link and step by step.
-/

namespace Llamenos.Crypto.Sigchain

open Llamenos.Lib Llamenos.Lib.Outcome

/-! ## The code -/

/-- `serde_json::Number`: `PosInt` and `NegInt` as one integer, or a finite float. -/
inductive Number (F : Type) where
  | int (i : Int)
  | float (x : F)

/-- The texts that `serde_json` writes for finite floats: distinct for distinct floats, and with a
decimal point or an exponent, so never those of an integer. -/
structure FloatText (F : Type) where
  text : F → Bytes
  bytes : ∀ x, ∀ b ∈ text x, Json.isNumberByte b
  marked : ∀ x, ascii '.' ∈ text x ∨ ascii 'e' ∈ text x
  injective : Function.Injective text

/-- `serde_json::Value`. -/
abbrev Value (F : Type) := Json (Number F)

/-- SHA-256, `from_str`, the text of floats, and Ed25519: the public keys that are points, and
for these the verification of a signature. -/
structure SigchainPrims (F : Type) where
  sha256 : Bytes → U8Array 32
  fromStr : String → Except String (Value F)
  floatText : FloatText F
  ed25519 : U8Array 32 → Option (Bytes → U8Array 64 → Bool)

variable {F : Type}

/-- `SigchainLink`. -/
structure SigchainLink where
  id : String
  seq : UInt64
  prevHash : Option String
  entryHash : String
  signerDeviceId : String
  signerPubkey : String
  signature : String
  timestamp : String
  payloadJson : String

/-- `SigchainVerifiedState`. -/
structure SigchainVerifiedState where
  verifiedCount : UInt64
  headSeq : UInt64
  headHash : String
  activeDevicePubkeys : List String
  deriving DecidableEq

/-- `ct_hex_eq`. -/
def ctHexEq (a b : String) : Bool :=
  match hexDecode a, hexDecode b with
  | .ok aBytes, .ok bBytes => if aBytes.length ≠ bBytes.length then false else aBytes == bBytes
  | _, _ => false

/-- The text of a number. -/
def numberText (floatText : FloatText F) : Number F → Bytes
  | .int i => (intChars i).map ascii
  | .float x => floatText.text x

/-- The object that is hashed, its keys in sorted order. -/
def canonical (payload : Value F) (prevHash : Option String) (seq : UInt64)
    (signerDeviceId signerPubkey timestamp : String) : Value F :=
  .obj [("payload", payload), ("prevHash", prevHash.elim .null .str),
    ("seq", .num (.int seq.toNat)), ("signerDeviceId", .str signerDeviceId),
    ("signerPubkey", .str signerPubkey), ("timestamp", .str timestamp)]

/-- The bytes of `serde_json::to_string`, which does not fail on a `Value`. -/
def toBytes (floatText : FloatText F) (value : Value F) : Bytes :=
  value.render (numberText floatText)

/-- `compute_entry_hash`. -/
def computeEntryHash (prims : SigchainPrims F) (seq : UInt64) (prevHash : Option String)
    (timestamp signerDeviceId signerPubkey payloadJson : String) : Call String := do
  let payloadValue ← mapErr .jsonError (prims.fromStr payloadJson)
  let canonicalStr := toBytes prims.floatText
    (canonical payloadValue prevHash seq signerDeviceId signerPubkey timestamp)
  pure (hexEncode (prims.sha256 canonicalStr).bytes)

/-- `create_sigchain_link`. -/
def createSigchainLink (prims : SigchainPrims F) (secrets : DeviceSecrets) (id deviceId : String)
    (seq : UInt64) (prevHash : Option String) (timestamp payloadJson : String) :
    Call SigchainLink := do
  let signerPubkey := hexEncode secrets.signingPubkey.bytes
  let entryHash ← computeEntryHash prims seq prevHash timestamp deviceId signerPubkey payloadJson
  let hashBytes ← mapErr .hexError (hexDecode entryHash)
  let signature := hexEncode (secrets.sign hashBytes).bytes
  pure { id, seq, prevHash, entryHash, signerDeviceId := deviceId, signerPubkey, signature,
         timestamp, payloadJson }

/-- `verify_sigchain_link`. -/
def verifySigchainLink (prims : SigchainPrims F) (link : SigchainLink)
    (expectedSignerPubkey : String) : Call Bool :=
  if !ctHexEq link.signerPubkey expectedSignerPubkey then .ok false
  else do
    let expectedHash ← computeEntryHash prims link.seq link.prevHash link.timestamp
      link.signerDeviceId link.signerPubkey link.payloadJson
    if !ctHexEq expectedHash link.entryHash then .ok false
    else do
      let pubkeyBytes ← mapErr .hexError (hexDecode link.signerPubkey)
      let pubkeyArr ← tryInto 32 pubkeyBytes .invalidPublicKey
      match prims.ed25519 pubkeyArr with
      | none => .err .invalidPublicKey
      | some verify => do
        let hashBytes ← mapErr .hexError (hexDecode link.entryHash)
        let sigBytes ← mapErr .hexError (hexDecode link.signature)
        let sigArr ← tryInto 64 sigBytes .signatureVerificationFailed
        pure (verify hashBytes sigArr)

/-- `value.get(key).and_then(|v| v.as_str())`. -/
def getStr (value : Value F) (key : String) : Option String := (value.get? key).bind Json.asStr?

/-- What a payload does to the active device keys. -/
def updateDevices (active : List String) (payload : Value F) : List String :=
  if getStr payload "type" = some "device_add" then
    match getStr payload "devicePubkey" with
    | some pubkey => if active.contains pubkey then active else active ++ [pubkey]
    | none => active
  else if getStr payload "type" = some "device_remove" then
    match getStr payload "devicePubkey" with
    | some pubkey => active.filter (· != pubkey)
    | none => active
  else active

/-- The active device keys after a link. -/
def devicesAfter (prims : SigchainPrims F) (active : List String) (link : SigchainLink) :
    List String :=
  match prims.fromStr link.payloadJson with
  | .ok payload => updateDevices active payload
  | .error _ => active

/-- The loop variables of `verify_sigchain`. -/
structure VerifierState where
  activePubkeys : List String
  prevHash : String
  prevSeq : UInt64

/-- `verify_sigchain` on the first link. -/
def verifyFirst (prims : SigchainPrims F) (first : SigchainLink) : Call VerifierState :=
  if first.seq ≠ 1 then .err (.invalidInput "first sigchain link must have seq=1")
  else if first.prevHash.isSome then
    .err (.invalidInput "first sigchain link must have prevHash=null")
  else do
    let firstPayload ← mapErr .jsonError (prims.fromStr first.payloadJson)
    let payloadType := (getStr firstPayload "type").getD ""
    if payloadType ≠ "user_init" then
      .err (.invalidInput "first sigchain link must have type=user_init")
    else do
      let valid ← verifySigchainLink prims first first.signerPubkey
      if !valid then .err .signatureVerificationFailed
      else .ok { activePubkeys := [first.signerPubkey], prevHash := first.entryHash
                 prevSeq := first.seq }

/-- `match &link.prev_hash`: there is one, and it names the last link. -/
def linksTo (prevHash : Option String) (last : String) : Bool :=
  match prevHash with
  | some ph => ctHexEq ph last
  | none => false

/-- `verify_sigchain` on a later link: one iteration of the loop. -/
def verifyNext (p : Profile) (prims : SigchainPrims F) (state : VerifierState)
    (link : SigchainLink) : Call VerifierState := do
  let expected ← p.u64Add state.prevSeq 1
  if link.seq ≠ expected then
    .err (.invalidInput s!"sequence gap: expected {expected} but got {link.seq}")
  else if !linksTo link.prevHash state.prevHash then
    .err (.invalidInput s!"prevHash mismatch at seq {link.seq}")
  else if !state.activePubkeys.contains link.signerPubkey then
    .err (.invalidInput
      s!"signer {link.signerPubkey} not in active device set at seq {link.seq}")
  else do
    let valid ← verifySigchainLink prims link link.signerPubkey
    if !valid then .err .signatureVerificationFailed
    else .ok { activePubkeys := devicesAfter prims state.activePubkeys link
               prevHash := link.entryHash, prevSeq := link.seq }

/-- `verify_sigchain`. -/
def verifySigchain (p : Profile) (prims : SigchainPrims F) (links : List SigchainLink) :
    Call SigchainVerifiedState :=
  match links with
  | [] => .err (.invalidInput "sigchain must have at least one link")
  | first :: rest => do
    let state ← verifyFirst prims first
    let state ← rest.foldlM (verifyNext p prims) state
    .ok { verifiedCount := UInt64.ofNat (first :: rest).length
          headSeq := state.prevSeq
          headHash := state.prevHash
          activeDevicePubkeys := state.activePubkeys }

/-! ## Hashes and texts -/

theorem ctHexEq_iff {a b : String} :
    ctHexEq a b = true ↔ ∃ bytes, hexDecode a = .ok bytes ∧ hexDecode b = .ok bytes := by
  unfold ctHexEq
  cases ha : hexDecode a with
  | error e => simp
  | ok aBytes =>
    cases hb : hexDecode b with
    | error e => simp
    | ok bBytes =>
      simp only [Except.ok.injEq]
      by_cases hlen : aBytes.length = bBytes.length
      · rw [if_neg (not_not_intro hlen), beq_iff_eq]
        exact ⟨fun h => ⟨aBytes, rfl, h.symm⟩, fun ⟨bytes, h, h'⟩ => h.trans h'.symm⟩
      · rw [if_pos hlen]
        constructor
        · intro h
          cases h
        · rintro ⟨bytes, rfl, rfl⟩
          exact absurd rfl hlen

theorem intBytes_ne_floatText (floatText : FloatText F) (i : Int) (x : F) :
    (intChars i).map ascii ≠ floatText.text x := by
  intro h
  rcases floatText.marked x with hmark | hmark
  · exact (Json.isNumberByte_intBytes i _ (h ▸ hmark)).2.1 rfl
  · exact (Json.isNumberByte_intBytes i _ (h ▸ hmark)).2.2 rfl

/-- **Numbers are told apart by their texts.** -/
theorem numberText_unambiguous (floatText : FloatText F) :
    Json.Unambiguous (numberText floatText) := by
  refine ⟨fun n => ?_, fun n b hb => ?_, fun m n h => ?_⟩
  · cases n with
    | int i => exact Json.unambiguous_intBytes.ne_nil i
    | float x =>
      intro hnil
      rw [numberText] at hnil
      rcases floatText.marked x with hmark | hmark <;> simp [hnil] at hmark
  · cases n with
    | int i => exact (Json.isNumberByte_intBytes i b hb).1
    | float x => exact floatText.bytes x b hb
  · cases m with
    | int i =>
      cases n with
      | int j => rw [intBytes_inj.mp h]
      | float x => exact absurd h (intBytes_ne_floatText floatText i x)
    | float x =>
      cases n with
      | int j => exact absurd h.symm (intBytes_ne_floatText floatText j x)
      | float y => rw [floatText.injective h]

theorem toBytes_injective (floatText : FloatText F) : Function.Injective (toBytes floatText) :=
  Json.render_injective (numberText_unambiguous floatText)

theorem canonical_inj {payload payload' : Value F} {prevHash prevHash' : Option String}
    {seq seq' : UInt64} {device device' pubkey pubkey' timestamp timestamp' : String}
    (h : canonical payload prevHash seq device pubkey timestamp =
      canonical payload' prevHash' seq' device' pubkey' timestamp') :
    payload = payload' ∧ prevHash = prevHash' ∧ seq = seq' ∧ device = device' ∧
      pubkey = pubkey' ∧ timestamp = timestamp' := by
  unfold canonical at h
  simp only [Json.obj.injEq, List.cons.injEq, Prod.mk.injEq, true_and, and_true, Json.num.injEq,
    Number.int.injEq, Json.str.injEq, Int.natCast_inj, UInt64.toNat_inj] at h
  obtain ⟨hpayload, hprev, hseq, hdevice, hpubkey, htimestamp⟩ := h
  refine ⟨hpayload, ?_, hseq, hdevice, hpubkey, htimestamp⟩
  cases prevHash with
  | none => cases prevHash' with
    | none => rfl
    | some ph' => cases hprev
  | some ph => cases prevHash' with
    | none => cases hprev
    | some ph' => rw [Json.str.inj hprev]

/-! ## Accepted links and chains -/

/-- What `verify_sigchain_link` establishes of a link it accepts under its own signer: the entry
hash is that of the link's fields, and the signer is a key whose signature over it verifies. -/
structure Verified (prims : SigchainPrims F) (link : SigchainLink) (payload : Value F)
    (pubkey : U8Array 32) : Prop where
  payload_eq : prims.fromStr link.payloadJson = .ok payload
  hash_eq : hexDecode link.entryHash = .ok (prims.sha256 (toBytes prims.floatText
    (canonical payload link.prevHash link.seq link.signerDeviceId link.signerPubkey
      link.timestamp))).bytes
  pubkey_eq : hexDecode link.signerPubkey = .ok pubkey.bytes
  signed : ∃ verify signature hashBytes, prims.ed25519 pubkey = some verify ∧
    hexDecode link.signature = .ok signature.bytes ∧
    hexDecode link.entryHash = .ok hashBytes ∧ verify hashBytes signature = true

variable {prims : SigchainPrims F}

/-- **A link is accepted only if it is hashed and signed as it says.** -/
theorem verifySigchainLink_true {link : SigchainLink} {signer : String}
    (h : verifySigchainLink prims link signer = .ok true) :
    ∃ payload pubkey, Verified prims link payload pubkey := by
  unfold verifySigchainLink at h
  split at h
  · cases h
  obtain ⟨expectedHash, hexpected, h⟩ := bind_eq_ok.mp h
  split at h
  · cases h
  rename_i hhash
  obtain ⟨pubkeyBytes, hpubkey, h⟩ := bind_eq_ok.mp h
  obtain ⟨pubkey, hpubkeyArr, h⟩ := bind_eq_ok.mp h
  split at h
  · cases h
  rename_i verify hverify
  obtain ⟨hashBytes, hhashBytes, h⟩ := bind_eq_ok.mp h
  obtain ⟨sigBytes, hsig, h⟩ := bind_eq_ok.mp h
  obtain ⟨signature, hsigArr, h⟩ := bind_eq_ok.mp h
  rw [mapErr_eq_ok] at hpubkey hhashBytes hsig
  unfold computeEntryHash at hexpected
  obtain ⟨payload, hpayload, hexpected⟩ := bind_eq_ok.mp hexpected
  rw [mapErr_eq_ok] at hpayload
  injection hexpected with hexpected
  injection h with h
  have heq : ctHexEq expectedHash link.entryHash = true := by simpa using hhash
  obtain ⟨bytes, hdecoded, hentry⟩ := ctHexEq_iff.mp heq
  rw [← hexpected, hexDecode_hexEncode] at hdecoded
  injection hdecoded with hdecoded
  refine ⟨payload, pubkey, ⟨hpayload, ?_, ?_, verify, signature, hashBytes, hverify, ?_, ?_, h⟩⟩
  · rw [hentry, ← hdecoded]
  · rw [hpubkey, tryInto_eq_ok hpubkeyArr]
  · rw [hsig, tryInto_eq_ok hsigArr]
  · exact hhashBytes

/-- What the verifier establishes of the first link. -/
theorem verifyFirst_ok {first : SigchainLink} {state : VerifierState}
    (h : verifyFirst prims first = .ok state) :
    first.seq = 1 ∧ first.prevHash = none ∧
      (∃ payload pubkey, Verified prims first payload pubkey ∧
        getStr payload "type" = some "user_init") ∧
      state = ⟨[first.signerPubkey], first.entryHash, first.seq⟩ := by
  unfold verifyFirst at h
  split at h
  · cases h
  rename_i hseq
  split at h
  · cases h
  rename_i hprev
  obtain ⟨payload, hpayload, h⟩ := bind_eq_ok.mp h
  dsimp only at h
  split at h
  · cases h
  rename_i htype
  obtain ⟨valid, hvalid, h⟩ := bind_eq_ok.mp h
  split at h
  · cases h
  rename_i htrue
  rw [mapErr_eq_ok] at hpayload
  injection h with h
  have hv : valid = true := by simpa using htrue
  rw [hv] at hvalid
  obtain ⟨payload', pubkey, hverified⟩ := verifySigchainLink_true hvalid
  have hsame : payload' = payload := by
    have := hverified.payload_eq
    rw [hpayload] at this
    exact (Except.ok.inj this).symm
  rw [hsame] at hverified
  refine ⟨not_not.mp hseq, by simpa using hprev, ⟨payload, pubkey, hverified, ?_⟩, h.symm⟩
  cases hget : getStr payload "type" with
  | none => simp [hget] at htype
  | some t => simpa [hget] using htype

/-- What the verifier establishes of a later link, and what it goes on with. -/
theorem verifyNext_ok {p : Profile} {state state' : VerifierState}
    {link : SigchainLink} (h : verifyNext p prims state link = .ok state') :
    (∃ ph, link.prevHash = some ph ∧ ctHexEq ph state.prevHash = true) ∧
      link.signerPubkey ∈ state.activePubkeys ∧
      (∃ payload pubkey, Verified prims link payload pubkey) ∧
      state' = ⟨devicesAfter prims state.activePubkeys link, link.entryHash, link.seq⟩ := by
  unfold verifyNext at h
  obtain ⟨expected, -, h⟩ := bind_eq_ok.mp h
  split at h
  · cases h
  split at h
  · cases h
  rename_i hlinks
  split at h
  · cases h
  rename_i hactive
  obtain ⟨valid, hvalid, h⟩ := bind_eq_ok.mp h
  split at h
  · cases h
  rename_i htrue
  injection h with h
  have hv : valid = true := by simpa using htrue
  rw [hv] at hvalid
  refine ⟨?_, by simpa using hactive, verifySigchainLink_true hvalid, h.symm⟩
  cases hprev : link.prevHash with
  | none => simp [hprev, linksTo] at hlinks
  | some ph => exact ⟨ph, rfl, by simpa [hprev, linksTo] using hlinks⟩

/-- An accepted chain went through the first link and the loop. -/
theorem verifySigchain_ok {p : Profile} {chain : List SigchainLink}
    {verified : SigchainVerifiedState} (h : verifySigchain p prims chain = .ok verified) :
    ∃ first rest state state', chain = first :: rest ∧ verifyFirst prims first = .ok state ∧
      rest.foldlM (verifyNext p prims) state = .ok state' ∧
      verified = ⟨UInt64.ofNat chain.length, state'.prevSeq, state'.prevHash,
        state'.activePubkeys⟩ := by
  unfold verifySigchain at h
  cases chain with
  | nil => cases h
  | cons first rest =>
    obtain ⟨state, hfirst, h⟩ := bind_eq_ok.mp h
    obtain ⟨state', hrest, h⟩ := bind_eq_ok.mp h
    injection h with h
    exact ⟨first, rest, state, state', rfl, hfirst, hrest, h.symm⟩

/-! ## Sample links

Six links by two devices, with the digests and signatures that SHA-256 and Ed25519 give them. -/

/-- The key of the first device, lower and upper case, and that of the second. -/
def sampleKey : String := "d04ab232742bb4ab3a1368bd4615e4e6d0224ab71a016baf8520a332c9778737"
def sampleKeyUpper : String := "D04AB232742BB4AB3A1368BD4615E4E6D0224AB71A016BAF8520A332C9778737"
def sampleKey₂ : String := "a09aa5f47a6759802ff955f8dc2d2a14a5c99d23be97f864127ff9383455a4f0"

def initPayload : String := "\x7b\"type\":\"user_init\",\"deviceId\":\"dev-1\"\x7d"
def rotatePayload : String := "\x7b\"type\":\"puk_rotate\"\x7d"
def devicePayload (type key : String) : String :=
  "\x7b\"type\":\"" ++ type ++ "\",\"devicePubkey\":\"" ++ key ++ "\"\x7d"

def sampleInit : SigchainLink where
  id := "l1"
  seq := 1
  prevHash := none
  entryHash := "81891e664e1b65a5f0fa09a3a0be9f93311598f2dd92efeb2111b97b014a6154"
  signerDeviceId := "dev-1"
  signerPubkey := sampleKey
  signature := "7c4dbadc2a119e5842fee8a2ee3eda6f5778cabeefe05e07da2fe8a3cb6b104d" ++
    "38b0570394f64ab30b9d55b1d342c6ffa11a167675a6d059297c569ce49f5a07"
  timestamp := "2026-01-01T00:00:00Z"
  payloadJson := initPayload

/-- The first device removes itself, in upper case. -/
def sampleRemoveUpper : SigchainLink where
  id := "l2"
  seq := 2
  prevHash := some sampleInit.entryHash
  entryHash := "1b64127d823cec4d3017e07cd9fb49a344b1bcf3213418512ea5d75de76a118c"
  signerDeviceId := "dev-1"
  signerPubkey := sampleKey
  signature := "c68af973e2de558fc076038fd4cbe932b83ba4a92d82350ea28205bf2c886fa8" ++
    "c393afe6e4c2b3305c875f50c1edcea0a8d9e007dde9672424423e7c72491e05"
  timestamp := "2026-01-01T00:01:00Z"
  payloadJson := devicePayload "device_remove" sampleKeyUpper

/-- A link that the first device signs after it. -/
def sampleAfterRemove : SigchainLink where
  id := "l3"
  seq := 3
  prevHash := some sampleRemoveUpper.entryHash
  entryHash := "cf41b8ffece454bfd4fd39f97109c1e1c6017ed121bc7358f69a0b47510ceb4b"
  signerDeviceId := "dev-1"
  signerPubkey := sampleKey
  signature := "5509b39f5ddec9aa9955210e1d22f84c17adc295217c7147ffcb88b249b2f3b5" ++
    "09a7b0a7a847741035e15fc1e8554c536a4ffdd626d629576e91577390165e07"
  timestamp := "2026-01-01T00:02:00Z"
  payloadJson := rotatePayload

/-- The first device removes the second, adds it, and the second signs. -/
def sampleRemove : SigchainLink where
  id := "l2"
  seq := 2
  prevHash := some sampleInit.entryHash
  entryHash := "ba29e49c44ae2488c9e0aee3add226ccb1d330ed0b85eeddd64fc6e56ac5db15"
  signerDeviceId := "dev-1"
  signerPubkey := sampleKey
  signature := "01a286dd61e90448a5eb89fcb870078de9f674dc02bbbd63e173fb09069e0a24" ++
    "b1b6d4ac0fe5673da560d6da09fffa4be57f80097e32dcfb890e44fddfadc905"
  timestamp := "2026-01-01T00:01:00Z"
  payloadJson := devicePayload "device_remove" sampleKey₂

def sampleAdd : SigchainLink where
  id := "l3"
  seq := 3
  prevHash := some sampleRemove.entryHash
  entryHash := "b90beed203d3c53e227596d12e58a4c5a59596873af815c3254e9a0a37a7b0ea"
  signerDeviceId := "dev-1"
  signerPubkey := sampleKey
  signature := "f1101f261f5534b12574fc7b2ee39bec3775ec023d6965908f8881cfe530bed4" ++
    "45ce85729bd4f84662743e166585cc20689f0890e27eb984b121be236a908501"
  timestamp := "2026-01-01T00:02:00Z"
  payloadJson := devicePayload "device_add" sampleKey₂

def sampleAdded : SigchainLink where
  id := "l4"
  seq := 4
  prevHash := some sampleAdd.entryHash
  entryHash := "54cdccf12cc12961125ab866e4ffda71b885f821d21a77df773eca8576d4b6c0"
  signerDeviceId := "dev-2"
  signerPubkey := sampleKey₂
  signature := "26d191f466028eca171f3c51b2e917f7b5de1acb0d93c25760697c48f1b9a8c1" ++
    "c5958bb303cae16b5ead17e980bc5cf02c9615e9e7395270f2246adece0d9e0b"
  timestamp := "2026-01-01T00:03:00Z"
  payloadJson := rotatePayload

def sampleLinks : List SigchainLink :=
  [sampleInit, sampleRemoveUpper, sampleAfterRemove, sampleRemove, sampleAdd, sampleAdded]

/-- Floats do not occur in the samples. -/
def noFloats : FloatText Empty where
  text x := x.elim
  bytes x := x.elim
  marked x := x.elim
  injective x := x.elim

/-- `from_str` on the payloads of the samples. -/
def sampleFromStr (text : String) : Except String (Value Empty) :=
  let device (type key : String) : Value Empty :=
    .obj [("devicePubkey", .str key), ("type", .str type)]
  if text = initPayload then .ok (.obj [("deviceId", .str "dev-1"), ("type", .str "user_init")])
  else if text = rotatePayload then .ok (.obj [("type", .str "puk_rotate")])
  else if text = devicePayload "device_remove" sampleKeyUpper then
    .ok (device "device_remove" sampleKeyUpper)
  else if text = devicePayload "device_remove" sampleKey₂ then
    .ok (device "device_remove" sampleKey₂)
  else if text = devicePayload "device_add" sampleKey₂ then .ok (device "device_add" sampleKey₂)
  else .error "expected value at line 1 column 1"

/-- The bytes that are hashed for a sample. -/
def sampleHashed (link : SigchainLink) : Bytes :=
  match sampleFromStr link.payloadJson with
  | .ok payload => toBytes noFloats (canonical payload link.prevHash link.seq
      link.signerDeviceId link.signerPubkey link.timestamp)
  | .error _ => []

/-- SHA-256 and Ed25519 on the samples. -/
def samplePrims : SigchainPrims Empty where
  sha256 bytes := (sampleLinks.find? (sampleHashed · == bytes)).elim (U8Array.ofHex 32 "")
    (U8Array.ofHex 32 ·.entryHash)
  fromStr := sampleFromStr
  floatText := noFloats
  ed25519 key := some fun message signature => sampleLinks.any fun link =>
    U8Array.ofHex 32 link.signerPubkey == key && (U8Array.ofHex 32 link.entryHash).bytes == message
      && U8Array.ofHex 64 link.signature == signature

example : toBytes noFloats (canonical (.obj [("deviceId", .str "device-001"),
    ("type", .str "user_init")]) none 1 "device-001" "ab01cd02" "2026-01-01T00:00:00Z") =
    asBytes ("\x7b\"payload\":\x7b\"deviceId\":\"device-001\",\"type\":\"user_init\"\x7d," ++
    "\"prevHash\":null,\"seq\":1,\"signerDeviceId\":\"device-001\"," ++
    "\"signerPubkey\":\"ab01cd02\",\"timestamp\":\"2026-01-01T00:00:00Z\"\x7d") := by
  decide +kernel

end Llamenos.Crypto.Sigchain

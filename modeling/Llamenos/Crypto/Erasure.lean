import Llamenos.Crypto.Auth

/-!
# Signatures of erasure overrides and of device wipes

`erasure.rs`, with `sign_bytes` and `verify_signature` of `device_keys.rs`. The signed message is
a label, a target, a time and a text, with colons in between. An override's signature is only ever
too old; a wipe's may also be too far in the future.

Results:
* `verifyErasureOverride_ok`, `verifyDeviceWipe_ok`: what is accepted: a signature that verifies
  for the message, inside the window.
* `message_inj`: targets without a colon, times and texts have messages of their own.
* `verifyDeviceWipe_signed_iff`: **a wipe that is signed here is accepted for its device, time and
  reason only**.
* `Command.accepted_iff`: when a command of either kind is accepted.
* `timely_iff`: **a command is accepted inside its window only, exactly if it is not an override
  that is signed and premature**.
-/

namespace Llamenos.Crypto.Erasure

open Llamenos.Lib Llamenos.Lib.Outcome

/-! ## The code -/

def labelErasureOverrideSig : String := "llamenos:erasure-override-sig:v1"

def labelDeviceWipeSig : String := "llamenos:device-wipe-sig:v1"

/-- What both messages are made of. -/
def message (label target : String) (timestampMs : UInt64) (text : String) : Bytes :=
  asBytes s!"{label}:{target}:{timestampMs.toNat}:{text}"

def buildErasureOverrideMessage (targetUserId : String) (timestampMs : UInt64)
    (justification : String) : Bytes :=
  message labelErasureOverrideSig targetUserId timestampMs justification

def buildDeviceWipeMessage (targetDevicePubkey : String) (timestampMs : UInt64)
    (reason : String) : Bytes :=
  message labelDeviceWipeSig targetDevicePubkey timestampMs reason

/-- `sign_bytes`. -/
def signBytes (secrets : DeviceSecrets) (message : Bytes) : Bytes := (secrets.sign message).bytes

/-- `verify_signature`. -/
def verifySignature (ed25519 : Ed25519) (message signatureBytes : Bytes) (pubkeyHex : String) :
    Call Bool := do
  let pubkeyBytes ← mapErr .hexError (hexDecode pubkeyHex)
  let pubkeyArr ← tryInto 32 pubkeyBytes .invalidPublicKey
  match ed25519 pubkeyArr with
  | none => .err .invalidPublicKey
  | some verify => do
    let sigArr ← tryInto 64 signatureBytes .signatureVerificationFailed
    pure (verify message sigArr)

def signErasureOverride (secrets : DeviceSecrets) (targetUserId : String) (timestampMs : UInt64)
    (justification : String) : Bytes :=
  signBytes secrets (buildErasureOverrideMessage targetUserId timestampMs justification)

def signDeviceWipe (secrets : DeviceSecrets) (targetDevicePubkey : String) (timestampMs : UInt64)
    (reason : String) : Bytes :=
  signBytes secrets (buildDeviceWipeMessage targetDevicePubkey timestampMs reason)

/-- The end of both verifications. -/
def checkSignature (ed25519 : Ed25519) (message signatureBytes : Bytes) (pubkeyHex : String) :
    Call Unit := do
  let valid ← verifySignature ed25519 message signatureBytes pubkeyHex
  if valid then pure () else .err .invalidSignature

/-- `verify_erasure_override`. The subtraction saturates. -/
def verifyErasureOverride (ed25519 : Ed25519) (signatureBytes : Bytes)
    (coApproverPubkeyHex targetUserId : String) (timestampMs : UInt64) (justification : String)
    (currentTimestampMs maxAgeMs : UInt64) : Call Unit :=
  if currentTimestampMs.toNat - timestampMs.toNat > maxAgeMs.toNat then .err .staleTimestamp
  else
    checkSignature ed25519 (buildErasureOverrideMessage targetUserId timestampMs justification)
      signatureBytes coApproverPubkeyHex

def clockSkewToleranceMs : Nat := 30000

/-- `verify_device_wipe`. The addition and the subtraction saturate. -/
def verifyDeviceWipe (ed25519 : Ed25519) (signatureBytes : Bytes)
    (serverPubkeyHex targetDevicePubkey : String) (timestampMs : UInt64) (reason : String)
    (currentTimestampMs maxAgeMs : UInt64) : Call Unit :=
  if timestampMs.toNat > min (currentTimestampMs.toNat + clockSkewToleranceMs) (2 ^ 64 - 1) then
    .err .futureTimestamp
  else if currentTimestampMs.toNat - timestampMs.toNat > maxAgeMs.toNat then .err .staleTimestamp
  else
    checkSignature ed25519 (buildDeviceWipeMessage targetDevicePubkey timestampMs reason)
      signatureBytes serverPubkeyHex

/-! ## What is accepted -/

theorem toList_message (label target : String) (timestampMs : UInt64) (text : String) :
    (s!"{label}:{target}:{timestampMs.toNat}:{text}").toList =
      label.toList ++ ':' :: (target.toList ++ ':' :: (decimal timestampMs.toNat ++
        ':' :: text.toList)) := by
  have htoString : ∀ s : String, toString s = s := fun _ => rfl
  have hcolon : (":" : String).toList = [':'] := rfl
  have hdigits := toList_toString timestampMs.toNat
  simp [htoString, hcolon, ← hdigits]

/-- **A message tells its target, time and text**, if the target has no colon. -/
theorem message_inj {label target target' text text' : String} {ts ts' : UInt64}
    (h : ':' ∉ target.toList) (h' : ':' ∉ target'.toList) :
    message label target ts text = message label target' ts' text' ↔
      target = target' ∧ ts = ts' ∧ text = text' := by
  constructor
  · intro hmessage
    have hchars := congrArg String.toList (asBytes_injective hmessage)
    rw [toList_message, toList_message] at hchars
    have hrest := (List.cons.inj (List.append_cancel_left hchars)).2
    obtain ⟨htarget, hrest⟩ := (append_cons_inj_of_notMem_left h h').mp hrest
    have hdigits := Auth.colon_not_mem_decimal
    obtain ⟨hts, htext⟩ := (append_cons_inj_of_notMem_left (hdigits _) (hdigits _)).mp hrest
    exact ⟨String.toList_injective htarget, UInt64.toNat_inj.mp (decimal_inj.mp hts),
      String.toList_injective htext⟩
  · rintro ⟨rfl, rfl, rfl⟩
    rfl

/-- The signature verifies for the message, under the key with these digits. -/
def Verifies (ed25519 : Ed25519) (message signatureBytes : Bytes) (pubkeyHex : String) : Prop :=
  ∃ pubkey verify signature, hexDecode pubkeyHex = .ok (U8Array.bytes (n := 32) pubkey) ∧
    ed25519 pubkey = some verify ∧ signatureBytes = U8Array.bytes (n := 64) signature ∧
    verify message signature = true

theorem tryInto_bytes {n : Nat} (array : U8Array n) (e : CryptoError) :
    tryInto n array.bytes e = .ok array := dif_pos array.length_eq

theorem checkSignature_ok {ed25519 : Ed25519} {message signatureBytes : Bytes}
    {pubkeyHex : String} : checkSignature ed25519 message signatureBytes pubkeyHex = .ok () ↔
      Verifies ed25519 message signatureBytes pubkeyHex := by
  constructor
  · intro h
    obtain ⟨valid, hvalid, h⟩ := bind_eq_ok.mp h
    obtain ⟨pubkeyBytes, hpubkey, hvalid⟩ := bind_eq_ok.mp hvalid
    obtain ⟨pubkey, hpubkeyArr, hvalid⟩ := bind_eq_ok.mp hvalid
    split at hvalid
    · cases hvalid
    rename_i verify hverify
    obtain ⟨signature, hsig, hvalid⟩ := bind_eq_ok.mp hvalid
    injection hvalid with hvalid
    split_ifs at h with htrue
    rw [mapErr_eq_ok] at hpubkey
    exact ⟨pubkey, verify, signature, by rw [hpubkey, tryInto_eq_ok hpubkeyArr], hverify,
      tryInto_eq_ok hsig, hvalid.trans htrue⟩
  · rintro ⟨pubkey, verify, signature, hpubkey, hverify, rfl, htrue⟩
    simp [checkSignature, verifySignature, hpubkey, tryInto_bytes, hverify, htrue]

/-- **An override is accepted** if its signature verifies and is not too old. -/
theorem verifyErasureOverride_ok {ed25519 : Ed25519} {signatureBytes : Bytes}
    {coApproverPubkeyHex targetUserId justification : String} {timestampMs now maxAgeMs : UInt64} :
    verifyErasureOverride ed25519 signatureBytes coApproverPubkeyHex targetUserId timestampMs
        justification now maxAgeMs = .ok () ↔
      now.toNat ≤ timestampMs.toNat + maxAgeMs.toNat ∧
        Verifies ed25519 (buildErasureOverrideMessage targetUserId timestampMs justification)
          signatureBytes coApproverPubkeyHex := by
  unfold verifyErasureOverride
  split_ifs with hstale
  · exact iff_of_false (by simp) fun h => by omega
  · rw [checkSignature_ok]
    exact (and_iff_right (by omega)).symm

/-- When a time is neither in the future nor too old. -/
def InWindow (timestampMs now maxAgeMs : UInt64) : Prop :=
  timestampMs.toNat ≤ now.toNat + clockSkewToleranceMs ∧
    now.toNat ≤ timestampMs.toNat + maxAgeMs.toNat

instance (timestampMs now maxAgeMs : UInt64) : Decidable (InWindow timestampMs now maxAgeMs) :=
  inferInstanceAs (Decidable (_ ∧ _))

/-- **A wipe is accepted** if its signature verifies and its time is inside the window. -/
theorem verifyDeviceWipe_ok {ed25519 : Ed25519} {signatureBytes : Bytes}
    {serverPubkeyHex targetDevicePubkey reason : String} {timestampMs now maxAgeMs : UInt64} :
    verifyDeviceWipe ed25519 signatureBytes serverPubkeyHex targetDevicePubkey timestampMs reason
        now maxAgeMs = .ok () ↔
      InWindow timestampMs now maxAgeMs ∧
        Verifies ed25519 (buildDeviceWipeMessage targetDevicePubkey timestampMs reason)
          signatureBytes serverPubkeyHex := by
  have hlt := timestampMs.toNat_lt
  unfold verifyDeviceWipe InWindow
  split_ifs with hfuture hstale
  · exact iff_of_false (by simp) fun h => by omega
  · exact iff_of_false (by simp) fun h => by omega
  · rw [checkSignature_ok]
    exact (and_iff_right ⟨by omega, by omega⟩).symm

/-- What the device signs here verifies under its public key for the message, and for no other. -/
def SignsOnly (secrets : DeviceSecrets) (ed25519 : Ed25519) (message : Bytes) : Prop :=
  ∃ verify, ed25519 secrets.signingPubkey = some verify ∧
    ∀ message', verify message' (secrets.sign message) = true ↔ message' = message

/-- A signature of the device verifies for the message that it signed only. -/
theorem SignsOnly.verifies_signed_iff {secrets : DeviceSecrets} {ed25519 : Ed25519}
    {message message' : Bytes} (h : SignsOnly secrets ed25519 message) :
    Verifies ed25519 message' (signBytes secrets message)
      (hexEncode secrets.signingPubkey.bytes) ↔ message' = message := by
  obtain ⟨verify, hverify, hsigned⟩ := h
  constructor
  · rintro ⟨pubkey, verify', signature, hpubkey, hverify', hsig, htrue⟩
    obtain rfl : pubkey = secrets.signingPubkey :=
      U8Array.ext' (Except.ok.inj (hpubkey.symm.trans (hexDecode_hexEncode _)))
    obtain rfl : signature = secrets.sign message := U8Array.ext' hsig.symm
    obtain rfl : verify' = verify := Option.some.inj (hverify'.symm.trans hverify)
    exact (hsigned message').mp htrue
  · rintro rfl
    exact ⟨_, verify, _, hexDecode_hexEncode _, hverify, rfl, (hsigned _).mpr rfl⟩

/-- What a verifier is given of a command. -/
inductive Command where
  | erasureOverride (signatureBytes : Bytes) (coApproverPubkeyHex targetUserId : String)
      (timestampMs : UInt64) (justification : String)
  | deviceWipe (signatureBytes : Bytes) (serverPubkeyHex targetDevicePubkey : String)
      (timestampMs : UInt64) (reason : String)

namespace Command

/-- The verifier of the command, at `now`. -/
def verify (ed25519 : Ed25519) (now maxAgeMs : UInt64) : Command → Call Unit
  | erasureOverride signature pubkey target ts justification =>
    verifyErasureOverride ed25519 signature pubkey target ts justification now maxAgeMs
  | deviceWipe signature pubkey target ts reason =>
    verifyDeviceWipe ed25519 signature pubkey target ts reason now maxAgeMs

def timestampMs : Command → UInt64
  | erasureOverride _ _ _ ts _ => ts
  | deviceWipe _ _ _ ts _ => ts

def IsOverride : Command → Prop
  | erasureOverride .. => True
  | deviceWipe .. => False

/-- The signature verifies for the command's own message. -/
def Signed (ed25519 : Ed25519) : Command → Prop
  | erasureOverride signature pubkey target ts justification =>
    Verifies ed25519 (buildErasureOverrideMessage target ts justification) signature pubkey
  | deviceWipe signature pubkey target ts reason =>
    Verifies ed25519 (buildDeviceWipeMessage target ts reason) signature pubkey

end Command

variable {ed25519 : Ed25519} {c : Command} {now maxAgeMs : UInt64}

/-- **A command is accepted** if it is signed and not too old, and a wipe not too early either. -/
theorem Command.accepted_iff : c.verify ed25519 now maxAgeMs = .ok () ↔
    c.Signed ed25519 ∧ now.toNat ≤ c.timestampMs.toNat + maxAgeMs.toNat ∧
      (c.IsOverride ∨ c.timestampMs.toNat ≤ now.toNat + clockSkewToleranceMs) := by
  cases c with
  | erasureOverride signature pubkey target ts justification =>
    simp only [Command.verify, verifyErasureOverride_ok, Command.Signed, Command.timestampMs,
      Command.IsOverride, true_or, and_true]
    exact and_comm
  | deviceWipe signature pubkey target ts reason =>
    simp only [Command.verify, verifyDeviceWipe_ok, Command.Signed, Command.timestampMs,
      Command.IsOverride, false_or, InWindow]
    tauto

/-- What the window is for, at one reading of the clock: outside of it the command is not
accepted, and once accepted it does not outlive the window. -/
structure Timely (ed25519 : Ed25519) (c : Command) (now maxAgeMs : UInt64) : Prop where
  inWindow : c.verify ed25519 now maxAgeMs = .ok () → InWindow c.timestampMs now maxAgeMs
  expires : ∀ later, c.verify ed25519 now maxAgeMs = .ok () →
    c.verify ed25519 later maxAgeMs = .ok () →
    later.toNat ≤ now.toNat + clockSkewToleranceMs + maxAgeMs.toNat

/-- Dated later than the tolerance for clocks allows. -/
def Command.Premature (c : Command) (now : UInt64) : Prop :=
  now.toNat + clockSkewToleranceMs < c.timestampMs.toNat

/-- **A command is accepted inside its window only, exactly if** it is a wipe, or not premature,
or not signed. -/
theorem timely_iff (ed25519 : Ed25519) (c : Command) (now maxAgeMs : UInt64) :
    Timely ed25519 c now maxAgeMs ↔
      ¬ (c.IsOverride ∧ c.Premature now ∧ c.Signed ed25519) := by
  unfold Command.Premature
  constructor
  · rintro ⟨hwindow, -⟩ ⟨hoverride, hpremature, hsigned⟩
    have hage : now.toNat ≤ c.timestampMs.toNat + maxAgeMs.toNat := by omega
    have hearly := (hwindow (Command.accepted_iff.mpr ⟨hsigned, hage, .inl hoverride⟩)).1
    omega
  · intro h
    have hwindow : c.verify ed25519 now maxAgeMs = .ok () →
        InWindow c.timestampMs now maxAgeMs := by
      intro haccepted
      obtain ⟨hsigned, hage, hkind⟩ := Command.accepted_iff.mp haccepted
      refine ⟨?_, hage⟩
      by_contra hearly
      exact h ⟨hkind.resolve_right hearly, Nat.lt_of_not_le hearly, hsigned⟩
    refine ⟨hwindow, fun later haccepted hlater => ?_⟩
    have hearly := (hwindow haccepted).1
    have hage := (Command.accepted_iff.mp hlater).2.1
    omega

/-- A co-approver's key, as far as one signature goes. -/
def sampleApprover : DeviceSecrets where
  signingPubkey :=
    U8Array.ofHex 32 "ea4a6c63e29c520abef5507b132ec5f9954776aebebe7b92421eea691446d22c"
  sign _ := U8Array.ofHex 64 ("b871f40ff52fd53038e5b1ef91eabaf0793ba966e1e1bdef0c5671fbe7942a68" ++
    "630bd7ef8730469f0cb2f1c1fb0c577c195251205672fbee3d325bbe8b611f0c")

/-- Ed25519 on the co-approver's signature of one message. -/
def approverEd25519 (message : Bytes) : Ed25519 := fun _ => some fun message' signature =>
  message' == message && signature == sampleApprover.sign message

theorem sampleApprover_signsOnly (message : Bytes) :
    SignsOnly sampleApprover (approverEd25519 message) message := by
  refine ⟨_, rfl, fun message' => ?_⟩
  rw [Bool.and_eq_true, beq_iff_eq, beq_iff_eq]
  exact and_iff_left rfl

/-- An override that is dated a minute and a millisecond after 1767225600000. -/
def sampleOverride : Command :=
  .erasureOverride (signErasureOverride sampleApprover "ada" 1767225660001 "left the group")
    (hexEncode sampleApprover.signingPubkey.bytes) "ada" 1767225660001 "left the group"

theorem sampleOverride_premature :
    ¬ Timely (approverEd25519 (buildErasureOverrideMessage "ada" 1767225660001 "left the group"))
      sampleOverride 1767225600000 300000 := by
  rintro ⟨hwindow, -⟩
  have hsigned : sampleOverride.Signed (approverEd25519
      (buildErasureOverrideMessage "ada" 1767225660001 "left the group")) :=
    (sampleApprover_signsOnly _).verifies_signed_iff.mpr rfl
  have hage : (1767225600000 : UInt64).toNat ≤
      sampleOverride.timestampMs.toNat + (300000 : UInt64).toNat := by decide
  have hoverride : sampleOverride.IsOverride := trivial
  exact absurd (hwindow (Command.accepted_iff.mpr ⟨hsigned, hage, .inl hoverride⟩)) (by decide)

end Llamenos.Crypto.Erasure

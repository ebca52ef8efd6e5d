import Llamenos.Crypto.Primitives

/-!
# Events that mobile clients decrypt

The event keys of `ffi_v3.rs`, and the functions that decrypt a hub's and the server's events with
them. A packet is a nonce of 12 bytes, the ciphertext and its tag of 16. Inside the server's events
with an epoch, a length of 4 bytes comes first, and padding last.

Results:
* `unpad_pad`: a text is found in its padding.
* `fromUtf8_ok`: which bytes are a text.
* `decryptServerEvent_packet`: **a client with the key of a packet, as the current or the previous
  one, decrypts it with its own epoch and with no other**.
* `decryptHubEvent_packet`: what a client makes of a packet under the hub's key.
-/

namespace Llamenos.Crypto.Events

open Llamenos.Lib Llamenos.Lib.Outcome

/-! ## The code -/

def labelHubEvent : String := "llamenos:hub-event"

def labelHubEventEpoch : String := "llamenos:hub-event-epoch:v1"

/-- The event keys of the mobile state. -/
structure MobileState where
  hubKeys : String → Option (U8Array 32) := fun _ => none
  serverEventCurrentKey : Option (U8Array 32) := none
  serverEventPreviousKey : Option (U8Array 32) := none

/-- A key of 32 bytes in hexadecimal. -/
def keyFromHex (hex : String) : Call (U8Array 32) := do
  let bytes ← mapErr .hexError (hexDecode hex)
  tryInto 32 bytes .invalidSecretKey

/-- `mobile_set_server_event_keys`. -/
def mobileSetServerEventKeys (s : MobileState) (currentHex : String)
    (previousHex : Option String) : Call MobileState := do
  let current ← keyFromHex currentHex
  let previous ← match previousHex with
    | some hex => do
      let key ← keyFromHex hex
      pure (some key)
    | none => pure none
  pure
    { s with
      serverEventCurrentKey := some current
      serverEventPreviousKey := previous }

/-- `String::from_utf8`. -/
def fromUtf8 (bytes : Bytes) : Call String :=
  match String.fromUTF8? ⟨bytes.toArray⟩ with
  | some text => pure text
  | none => .err .decryptionFailed

/-- The nonce of a packet, and the rest of it. -/
def splitPacket (hex : String) : Call (U8Array 12 × Bytes) := do
  let data ← mapErr .hexError (hexDecode hex)
  if data.length < 28 then .err .invalidCiphertext
  else do
    let nonce ← U8Array.fromSlice 12 (data.take 12)
    pure (nonce, data.drop 12)

/-- `mobile_decrypt_hub_event`. -/
def mobileDecryptHubEvent (aead : Aes256Gcm) (s : MobileState) (ciphertextHex hubId : String) :
    Call String :=
  match s.hubKeys hubId with
  | none => .err (.invalidInput s!"No hub key for hub: {hubId}")
  | some key => do
    let (nonce, ciphertext) ← splitPacket ciphertextHex
    match aead.decrypt key nonce ciphertext (asBytes labelHubEvent) with
    | some plaintext => fromUtf8 plaintext
    | none => .err .decryptionFailed

/-- `u32::from_le_bytes`, on the four bytes of its argument. -/
def fromLeBytes (bytes : Bytes) : Nat := ofBe bytes.reverse

/-- `unpad`. -/
def unpad (padded : Bytes) : Call String :=
  if padded.length < 4 then .err .invalidCiphertext
  else
    let actualLen := fromLeBytes (padded.take 4)
    if actualLen + 4 > padded.length then .err .invalidCiphertext
    else fromUtf8 ((padded.drop 4).take actualLen)

/-- The associated data of an epoch. -/
def epochAad (epoch : Nat) : Bytes := asBytes s!"{labelHubEventEpoch}:{epoch}"

/-- `mobile_decrypt_server_event_with_epoch`. -/
def mobileDecryptServerEventWithEpoch (aead : Aes256Gcm) (s : MobileState) (encryptedHex : String)
    (epoch : UInt64) : Call String :=
  match s.serverEventCurrentKey with
  | none => .err (.invalidInput "No server event key set")
  | some current => do
    let (nonce, ciphertext) ← splitPacket encryptedHex
    let tryDecrypt := fun key => aead.decrypt key nonce ciphertext (epochAad epoch.toNat)
    match (tryDecrypt current).or (s.serverEventPreviousKey.bind tryDecrypt) with
    | some plaintext => unpad plaintext
    | none => .err .decryptionFailed

/-! ## Texts -/

theorem fromUtf8_ok {bytes : Bytes} {text : String} :
    fromUtf8 bytes = .ok text ↔ bytes = asBytes text := by
  unfold fromUtf8 String.fromUTF8?
  split
  · rename_i text' h
    split_ifs at h with hvalid
    obtain rfl := Option.some.inj h
    constructor
    · intro heq
      injection heq with heq
      rw [← heq]
      rfl
    · rintro rfl
      exact congrArg Outcome.ok (String.toByteArray_inj.mp rfl)
  · rename_i h
    split_ifs at h with hvalid
    refine iff_of_false (by simp) ?_
    rintro rfl
    exact hvalid text.isValidUTF8

@[simp] theorem fromUtf8_asBytes (text : String) : fromUtf8 (asBytes text) = .ok text :=
  fromUtf8_ok.mpr rfl

/-- `u32::to_le_bytes` of the number modulo `2 ^ 32`. -/
def toLeBytes (n : Nat) : Bytes := (toBe 4 n).reverse

theorem length_toLeBytes (n : Nat) : (toLeBytes n).length = 4 := by
  rw [toLeBytes, List.length_reverse, length_toBe]

theorem fromLeBytes_toLeBytes (n : Nat) : fromLeBytes (toLeBytes n) = n % 2 ^ 32 := by
  rw [fromLeBytes, toLeBytes, List.reverse_reverse, ofBe_toBe]
  rfl

/-- **A text is found in its padding.** -/
theorem unpad_pad {text : String} (h : (asBytes text).length < 2 ^ 32) (padding : Bytes) :
    unpad (toLeBytes (asBytes text).length ++ asBytes text ++ padding) = .ok text := by
  have hlen := length_toLeBytes (asBytes text).length
  have htake : (toLeBytes (asBytes text).length ++ asBytes text ++ padding).take 4 =
      toLeBytes (asBytes text).length := by
    rw [List.append_assoc, List.take_append_of_le_length hlen.ge, List.take_of_length_le hlen.le]
  have hdrop : (toLeBytes (asBytes text).length ++ asBytes text ++ padding).drop 4 =
      asBytes text ++ padding := by
    rw [List.append_assoc, List.drop_append_of_le_length hlen.ge, List.drop_of_length_le hlen.le,
      List.nil_append]
  rw [unpad, htake, hdrop, fromLeBytes_toLeBytes, Nat.mod_eq_of_lt h]
  simp only [List.length_append, hlen]
  rw [if_neg (by omega), if_neg (by omega), List.take_left', fromUtf8_asBytes]
  rfl

/-! ## Packets -/

/-- AES-256-GCM as specified: what it encrypts has a tag of 16 bytes, and is decrypted to what it
was. -/
structure AsSpecified (aead : Aes256Gcm) : Prop where
  tag : ∀ key nonce msg aad ciphertext, aead.encrypt key nonce msg aad = .ok ciphertext →
    ciphertext.length = msg.length + 16
  roundTrips : aead.RoundTrips

/-- Of these keys, only its own opens the ciphertext, and only with its own epoch. -/
def Authentic (aead : Aes256Gcm) (keys : U8Array 32 → Prop) (key : U8Array 32)
    (nonce : U8Array 12) (ciphertext : Bytes) (epoch : Nat) : Prop :=
  ∀ key' (epoch' : UInt64), keys key' → ¬ (key' = key ∧ epoch'.toNat = epoch) →
    aead.decrypt key' nonce ciphertext (epochAad epoch'.toNat) = none

/-- A packet, in hexadecimal. -/
def packet (nonce : U8Array 12) (ciphertext : Bytes) : String :=
  hexEncode (nonce.bytes ++ ciphertext)

theorem splitPacket_packet (nonce : U8Array 12) {ciphertext : Bytes} (h : 16 ≤ ciphertext.length) :
    splitPacket (packet nonce ciphertext) = .ok (nonce, ciphertext) := by
  have hlen := nonce.length_eq
  have htake : (nonce.bytes ++ ciphertext).take 12 = nonce.bytes := by
    rw [List.take_append_of_le_length hlen.ge, List.take_of_length_le hlen.le]
  have hdrop : (nonce.bytes ++ ciphertext).drop 12 = ciphertext := by
    rw [List.drop_append_of_le_length hlen.ge, List.drop_of_length_le hlen.le, List.nil_append]
  have hlong : ¬ (nonce.bytes ++ ciphertext).length < 28 := by
    rw [List.length_append]
    omega
  simp only [splitPacket, packet, hexDecode_hexEncode, mapErr_ok, ok_bind, if_neg hlong, htake,
    hdrop, U8Array.fromSlice_ok hlen, pure_eq]

theorem epochAad_inj {epoch epoch' : Nat} : epochAad epoch = epochAad epoch' ↔ epoch = epoch' := by
  constructor
  · intro h
    have hchars := congrArg String.toList (asBytes_injective h)
    have hdigits (n : Nat) : Nat.toDigits 10 n = decimal n := rfl
    simp [hdigits, decimal_inj] at hchars
    exact hchars
  · rintro rfl
    rfl

/-- **A client with the key of a packet decrypts it with its epoch only.** -/
theorem decryptServerEvent_packet {aead : Aes256Gcm} (haead : AsSpecified aead)
    {keys : U8Array 32 → Prop} {key : U8Array 32} {nonce : U8Array 12} {msg ciphertext : Bytes}
    {epoch : Nat} (hencrypt : aead.encrypt key nonce msg (epochAad epoch) = .ok ciphertext)
    (hauth : Authentic aead keys key nonce ciphertext epoch) {s : MobileState}
    {current previous : U8Array 32} (hcurrent : s.serverEventCurrentKey = some current)
    (hprevious : s.serverEventPreviousKey = some previous)
    (hkeys : keys current ∧ keys previous) (hkey : key = current ∨ key = previous)
    (epoch' : UInt64) :
    mobileDecryptServerEventWithEpoch aead s (packet nonce ciphertext) epoch' =
      if epoch'.toNat = epoch then unpad msg else .err .decryptionFailed := by
  have hlong : 16 ≤ ciphertext.length := by
    rw [haead.tag _ _ _ _ _ hencrypt]
    omega
  -- what a key makes of the ciphertext
  have hopen (key' : U8Array 32) (hmem : keys key') :
      aead.decrypt key' nonce ciphertext (epochAad epoch'.toNat) =
        if key' = key ∧ epoch'.toNat = epoch then some msg else none := by
    split_ifs with h
    · rw [h.1, h.2]
      exact haead.roundTrips _ _ _ _ _ hencrypt
    · exact hauth key' epoch' hmem h
  simp only [mobileDecryptServerEventWithEpoch, hcurrent, hprevious, Option.bind_some,
    splitPacket_packet nonce hlong, ok_bind, hopen current hkeys.1, hopen previous hkeys.2]
  by_cases hepoch : epoch'.toNat = epoch
  · have hfound : (if current = key ∧ epoch'.toNat = epoch then some msg else none).or
        (if previous = key ∧ epoch'.toNat = epoch then some msg else none) = some msg := by
      rcases hkey with rfl | rfl
      · simp [hepoch]
      · simp only [hepoch, and_true, if_true]
        split_ifs
        · rfl
        · rfl
    rw [hfound, if_pos hepoch]
  · simp only [hepoch, and_false, if_false, Option.none_or]

/-- What a client makes of a packet under the hub's key: it is the padded text. -/
theorem decryptHubEvent_packet {aead : Aes256Gcm} (haead : AsSpecified aead) {key : U8Array 32}
    {nonce : U8Array 12} {msg ciphertext : Bytes}
    (hencrypt : aead.encrypt key nonce msg (asBytes labelHubEvent) = .ok ciphertext)
    {s : MobileState} {hubId : String} (hkey : s.hubKeys hubId = some key) :
    mobileDecryptHubEvent aead s (packet nonce ciphertext) hubId = fromUtf8 msg := by
  have hlong : 16 ≤ ciphertext.length := by
    rw [haead.tag _ _ _ _ _ hencrypt]
    omega
  simp only [mobileDecryptHubEvent, hkey, splitPacket_packet nonce hlong, ok_bind,
    haead.roundTrips _ _ _ _ _ hencrypt]

/-! ## An AEAD on two inputs -/

/-- An input of an AEAD, and what it gives. -/
structure Row where
  key : U8Array 32
  nonce : U8Array 12
  msg : Bytes
  aad : Bytes
  ciphertext : Bytes

/-- An AEAD that is only known on two inputs; elsewhere it refuses. -/
def pairAead (r r' : Row) : Aes256Gcm where
  encrypt key nonce msg aad :=
    if (key, nonce, msg, aad) = (r.key, r.nonce, r.msg, r.aad) then .ok r.ciphertext
    else if (key, nonce, msg, aad) = (r'.key, r'.nonce, r'.msg, r'.aad) then .ok r'.ciphertext
    else .error "aead::Error"
  decrypt key nonce ciphertext aad :=
    if (key, nonce, ciphertext, aad) = (r.key, r.nonce, r.ciphertext, r.aad) then some r.msg
    else if (key, nonce, ciphertext, aad) = (r'.key, r'.nonce, r'.ciphertext, r'.aad) then
      some r'.msg
    else none

variable {r r' : Row}

theorem pairAead_asSpecified (h : r.ciphertext.length = r.msg.length + 16)
    (h' : r'.ciphertext.length = r'.msg.length + 16) (hne : r'.aad ≠ r.aad) :
    AsSpecified (pairAead r r') where
  tag key nonce msg aad ciphertext hencrypt := by
    dsimp only [pairAead] at hencrypt
    split_ifs at hencrypt with hin hin
    · simp only [Prod.mk.injEq] at hin
      rw [← Except.ok.inj hencrypt, hin.2.2.1, h]
    · simp only [Prod.mk.injEq] at hin
      rw [← Except.ok.inj hencrypt, hin.2.2.1, h']
  roundTrips key nonce msg aad ciphertext hencrypt := by
    dsimp only [pairAead] at hencrypt ⊢
    split_ifs at hencrypt with hin hin
    · simp only [Prod.mk.injEq] at hin
      obtain ⟨rfl, rfl, rfl, rfl⟩ := hin
      rw [← Except.ok.inj hencrypt, if_pos rfl]
    · simp only [Prod.mk.injEq] at hin
      obtain ⟨rfl, rfl, rfl, rfl⟩ := hin
      rw [← Except.ok.inj hencrypt, if_neg fun heq => ?_, if_pos rfl]
      simp only [Prod.mk.injEq] at heq
      exact hne heq.2.2.2

theorem labelHubEvent_ne_epochAad (epoch : Nat) : asBytes labelHubEvent ≠ epochAad epoch := by
  intro h
  have hlen := congrArg (List.length ∘ String.toList) (asBytes_injective h)
  have hlabel : labelHubEvent.toList.length = 18 := by decide
  have hepoch : labelHubEventEpoch.toList.length = 27 := by decide
  simp only [Function.comp_apply, hlabel, String.toList_append, List.length_append] at hlen
  have htoString : (toString labelHubEventEpoch).toList.length = 27 := hepoch
  omega

/-- Under the associated data of an epoch, and of the hub's events. -/
theorem pairAead_authentic (keys : U8Array 32 → Prop) {epoch : Nat} (h : r.aad = epochAad epoch)
    (h' : r'.aad = asBytes labelHubEvent) :
    Authentic (pairAead r r') keys r.key r.nonce r.ciphertext epoch := by
  intro key' epoch' _ hother
  dsimp only [pairAead]
  rw [if_neg, if_neg]
  · intro heq
    simp only [Prod.mk.injEq, h'] at heq
    exact labelHubEvent_ne_epochAad _ heq.2.2.2.symm
  · intro heq
    simp only [Prod.mk.injEq, h, true_and] at heq
    exact hother ⟨heq.1, epochAad_inj.mp heq.2⟩

end Llamenos.Crypto.Events

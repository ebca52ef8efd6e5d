import Llamenos.Crypto.Events
import Llamenos.Worker.Runtime

/-!
# The encryption of events

`publishEvent` of `apps/worker/lib/ws-events.ts` up to the payload, with its cache of keys;
`encryptHubEvent` and `deriveServerEventKey` of `hub-event-crypto.ts`; and the keys of `/me` in
`routes/auth.ts`. `JSON.stringify` and HKDF are parameters, and so are the random bytes of a call.
The 32 bytes that HKDF gives are the same on both ways to it.

Both encoders pad the text in the same way. `mobile_decrypt_server_event_with_epoch` takes the
padding off, and `mobile_decrypt_hub_event` does not.

Results:
* `le_growBucket`: a text fits into its bucket, with its length.
* `cacheAfter_derived`: the cached keys are those of their epochs.
* `epochEvents_open`: **the server's events open with the keys of `/me`, in their epoch only**.
* `formats_iff`: **both formats give the text back exactly if the hub's events cannot be
  encrypted at all**.
-/

namespace Llamenos.Worker.EventEncryption

open Llamenos.Lib Llamenos.Crypto Llamenos.Crypto.Events

/-! ## The code -/

def LABEL_SERVER_EVENT_ENCRYPTION_KEY : String := "llamenos:server-event-encryption:v1"

def LABEL_SERVER_EVENT_ENCRYPTION_KEY_INFO : String := "llamenos:server-event-encryption-info:v1"

def MIN_BUCKET_SIZE : Nat := 512

/-- Above this, the encryption of the crypto crate refuses its input. -/
def MAX_INPUT_SIZE : Nat := 100 * 1024 * 1024

/-- `hkdfSha256` and `hkdf(sha256, …)`, for 32 bytes: of the key material, the salt and the
info. -/
abbrev Hkdf32 := Bytes → Bytes → Bytes → U8Array 32

/-- The random bytes of a call. -/
structure Random where
  nonce : U8Array 12
  padding : (n : Nat) → U8Array n

variable (hkdf : Hkdf32) (aead : Aes256Gcm)

/-- The loop that doubles the bucket. -/
def growBucket (bucket totalNeeded : Nat) : Nat :=
  if 0 < bucket ∧ bucket < totalNeeded then growBucket (bucket * 2) totalNeeded else bucket
termination_by totalNeeded - bucket

def padToBucket (random : Random) (plaintext : Bytes) : Bytes :=
  let totalNeeded := 4 + plaintext.length
  let bucket := growBucket MIN_BUCKET_SIZE totalNeeded
  toLeBytes plaintext.length ++ plaintext ++ (random.padding (bucket - totalNeeded)).bytes

/-- `currentEpoch` and `getCurrentEpoch`, with `Date.now()` at `now`. -/
def currentEpoch (now : Nat) : Nat := now / 1000 / 86400

/-- `deriveServerEventKey`; an empty hub id is none. -/
def deriveServerEventKey (serverSecret : String) (hubId : Option String) (epoch : Option Int) :
    Option (U8Array 32) := do
  let salt := match hubId.filter (· ≠ "") with
    | some id => asBytes s!"{LABEL_SERVER_EVENT_ENCRYPTION_KEY}:{id}"
    | none => asBytes LABEL_SERVER_EVENT_ENCRYPTION_KEY
  let info := match epoch with
    | some epoch => asBytes s!"{labelHubEventEpoch}:{epoch}"
    | none => asBytes LABEL_SERVER_EVENT_ENCRYPTION_KEY_INFO
  let ikm ← hexToBytes serverSecret
  pure (hkdf ikm salt info)

/-- `epochKeyCache`, with `lastCachedEpoch`. -/
structure EpochKeyCache where
  keys : Nat → Option (U8Array 32) := fun _ => none
  lastCachedEpoch : Int := -1

/-- `getOrDeriveEpochKey`, and the cache that it leaves; `none` where it throws. -/
def getOrDeriveEpochKey (cache : EpochKeyCache) (serverSecret : String) (epoch : Nat) :
    Option (U8Array 32) × EpochKeyCache :=
  match cache.keys epoch with
  | some key => (some key, cache)
  | none =>
    match hexToBytes serverSecret with
    | none => (none, cache)
    | some ikm =>
      let key := hkdf ikm (asBytes LABEL_SERVER_EVENT_ENCRYPTION_KEY)
        (asBytes s!"{labelHubEventEpoch}:{epoch}")
      let keys := fun e => if e = epoch then some key else cache.keys e
      if cache.lastCachedEpoch < epoch then
        (some key,
          { keys := fun e => if e + 1 < epoch then none else keys e
            lastCachedEpoch := epoch })
      else (some key, { cache with keys })

/-- `symmetricEncrypt`: nonce, ciphertext and tag. -/
def symmetricEncrypt (random : Random) (key : U8Array 32) (plaintext aad : Bytes) :
    Option Bytes :=
  if MAX_INPUT_SIZE < plaintext.length ∨ MAX_INPUT_SIZE < aad.length then none
  else match aead.encrypt key random.nonce plaintext aad with
    | .ok ciphertext => some (random.nonce.bytes ++ ciphertext)
    | .error _ => none

section Content

variable {C : Type} (stringify : C → String)

def encryptEventContent (cache : EpochKeyCache) (random : Random) (content : C)
    (serverSecret : String) (epoch : Nat) : Option String × EpochKeyCache :=
  match getOrDeriveEpochKey hkdf cache serverSecret epoch with
  | (none, cache) => (none, cache)
  | (some key, cache) =>
    let padded := padToBucket random (asBytes (stringify content))
    let aad := asBytes s!"{labelHubEventEpoch}:{epoch}"
    ((symmetricEncrypt aead random key padded aad).map hexEncode, cache)

/-- What is passed on to `publishToHub`. -/
structure Event where
  hubId : String
  kind : Nat
  payload : String
  epoch : Nat

/-- `publishEvent` up to the event that it publishes; `none` where it throws or drops it. -/
def publishEvent (cache : EpochKeyCache) (serverSecret : Option String) (now : Nat)
    (random : Random) (kind : Nat) (content : C) (hubId : String) : Option Event × EpochKeyCache :=
  if hubId = "" then (none, cache)
  else
    let epoch := currentEpoch now
    match serverSecret.filter (· ≠ "") with
    | none => (some ⟨hubId, kind, stringify content, epoch⟩, cache)
    | some secret =>
      let (payload, cache) :=
        encryptEventContent hkdf aead stringify cache random content secret epoch
      (payload.map fun payload => ⟨hubId, kind, payload, epoch⟩, cache)

/-- `encryptHubEvent`; with an epoch its associated data have the epoch. -/
def encryptHubEvent (random : Random) (content : C) (eventKey : U8Array 32) (epoch : Option Int) :
    Option String :=
  let padded := padToBucket random (asBytes (stringify content))
  let aad := match epoch with
    | some epoch => asBytes s!"{labelHubEventEpoch}:{epoch}"
    | none => asBytes labelHubEvent
  match aead.encrypt eventKey random.nonce padded aad with
  | .ok ciphertext => some (hexEncode (random.nonce.bytes ++ ciphertext))
  | .error _ => none

end Content

/-- The event keys that `/me` hands out. -/
structure EventKeys where
  serverEventKeyHex : String
  serverEventKeyPrevHex : String
  eventKeyEpoch : Nat

/-- The event keys of `/me`, with `Date.now()` at `now`; `none` without a secret, or where it
throws. -/
def meEventKeys (serverSecret : Option String) (now : Nat) : Option EventKeys := do
  let secret ← serverSecret.filter (· ≠ "")
  let epoch := currentEpoch now
  let key ← deriveServerEventKey hkdf secret none (some (epoch : Int))
  let prev ← deriveServerEventKey hkdf secret none (some ((epoch : Int) - 1))
  pure
    { serverEventKeyHex := hexEncode key.bytes
      serverEventKeyPrevHex := hexEncode prev.bytes
      eventKeyEpoch := epoch }

/-! ## Buckets -/

/-- A text fits into its bucket. -/
theorem le_growBucket (bucket totalNeeded : Nat) (h : 0 < bucket) :
    totalNeeded ≤ growBucket bucket totalNeeded := by
  induction bucket using growBucket.induct totalNeeded with
  | case1 bucket hgrow ih =>
    rw [growBucket, if_pos hgrow]
    exact ih (by omega)
  | case2 bucket hgrow =>
    rw [growBucket, if_neg hgrow]
    omega

theorem length_padToBucket (random : Random) (plaintext : Bytes) :
    (padToBucket random plaintext).length =
      growBucket MIN_BUCKET_SIZE (4 + plaintext.length) := by
  have hfits := le_growBucket MIN_BUCKET_SIZE (4 + plaintext.length) (by decide)
  unfold padToBucket
  simp only [List.length_append, length_toLeBytes, U8Array.length_eq]
  omega

/-- **A padded text is never the text**: it has at least its length more. -/
theorem padToBucket_ne (random : Random) (plaintext : Bytes) :
    padToBucket random plaintext ≠ plaintext := by
  intro h
  have hfits := le_growBucket MIN_BUCKET_SIZE (4 + plaintext.length) (by decide)
  rw [← length_padToBucket random, h] at hfits
  omega

/-- **A text is found in its bucket.** -/
theorem unpad_padToBucket (random : Random) {text : String} (h : (asBytes text).length < 2 ^ 32) :
    unpad (padToBucket random (asBytes text)) = .ok text :=
  unpad_pad h _

/-! ## Keys -/

variable {hkdf aead}

/-- The cached keys are those of their epochs. -/
def Derived (hkdf : Hkdf32) (secret : String) (cache : EpochKeyCache) : Prop :=
  ∀ epoch : Nat, ∀ key ∈ cache.keys epoch,
    deriveServerEventKey hkdf secret none (some (epoch : Int)) = some key

/-- The key of an epoch on the server is the one that `/me` hands out. -/
theorem deriveServerEventKey_epoch (secret : String) (epoch : Nat) {ikm : Bytes}
    (h : hexToBytes secret = some ikm) :
    deriveServerEventKey hkdf secret none (some (epoch : Int)) =
      some (hkdf ikm (asBytes LABEL_SERVER_EVENT_ENCRYPTION_KEY)
        (asBytes s!"{labelHubEventEpoch}:{epoch}")) := by
  rw [deriveServerEventKey, h]
  rfl

theorem getOrDeriveEpochKey_spec {secret : String} {cache : EpochKeyCache}
    (h : Derived hkdf secret cache) (epoch : Nat) :
    Derived hkdf secret (getOrDeriveEpochKey hkdf cache secret epoch).2 ∧
      ∀ key ∈ (getOrDeriveEpochKey hkdf cache secret epoch).1,
        deriveServerEventKey hkdf secret none (some (epoch : Int)) = some key := by
  unfold getOrDeriveEpochKey
  cases hcached : cache.keys epoch with
  | some key =>
    refine ⟨h, fun key' hkey' => ?_⟩
    obtain rfl : key = key' := Option.some.inj hkey'
    exact h epoch key hcached
  | none =>
    cases hikm : hexToBytes secret with
    | none => exact ⟨h, fun key hkey => absurd hkey (by simp)⟩
    | some ikm =>
      have hkey : deriveServerEventKey hkdf secret none (some (epoch : Int)) = _ :=
        deriveServerEventKey_epoch secret epoch hikm
      have hstored : ∀ e : Nat, ∀ key ∈ (if e = epoch then
          some (hkdf ikm (asBytes LABEL_SERVER_EVENT_ENCRYPTION_KEY)
            (asBytes s!"{labelHubEventEpoch}:{epoch}")) else cache.keys e),
          deriveServerEventKey hkdf secret none (some (e : Int)) = some key := by
        intro e key hmem
        split_ifs at hmem with he
        · rw [he, hkey]
          exact hmem
        · exact h e key hmem
      dsimp only
      split_ifs
      · refine ⟨fun e key hmem => ?_, fun key hmem => ?_⟩
        · dsimp only at hmem
          split_ifs at hmem
          · cases hmem
          · exact hstored e key (by rwa [if_pos ‹_›])
          · exact hstored e key (by rwa [if_neg ‹_›])
        · rw [hkey]
          exact hmem
      · exact ⟨hstored, fun key hmem => hkey.trans hmem⟩

section Content

variable {C : Type} {stringify : C → String}
variable {secret : String}

theorem encryptEventContent_derived {cache : EpochKeyCache}
    (h : Derived hkdf secret cache) (random : Random) (content : C) (epoch : Nat) :
    Derived hkdf secret
      (encryptEventContent hkdf aead stringify cache random content secret epoch).2 := by
  have hspec := (getOrDeriveEpochKey_spec h epoch).1
  unfold encryptEventContent
  split
  · rename_i heq
    rwa [heq] at hspec
  · rename_i heq
    rwa [heq] at hspec

/-- A call of `publishEvent`. -/
structure Publication (C : Type) where
  now : Nat
  random : Random
  kind : Nat
  content : C
  hubId : String

/-- The cache after the calls of a server with the secret. -/
def cacheAfter (hkdf : Hkdf32) (aead : Aes256Gcm) (stringify : C → String) (secret : String)
    (calls : List (Publication C)) : EpochKeyCache :=
  calls.foldl (fun cache call => (publishEvent hkdf aead stringify cache (some secret) call.now
    call.random call.kind call.content call.hubId).2) {}

/-- **The cached keys are those of their epochs.** -/
theorem cacheAfter_derived (secret : String) (calls : List (Publication C)) :
    Derived hkdf secret (cacheAfter hkdf aead stringify secret calls) := by
  have hstep : ∀ cache, Derived hkdf secret cache → ∀ call : Publication C,
      Derived hkdf secret (publishEvent hkdf aead stringify cache (some secret) call.now
        call.random call.kind call.content call.hubId).2 := by
    intro cache h call
    unfold publishEvent
    split_ifs
    · exact h
    · split
      · exact h
      · rename_i hsecret
        obtain rfl := Option.some.inj (Option.eq_some_of_filter_eq_some hsecret)
        exact encryptEventContent_derived h _ _ _
  refine List.foldlRecOn (motive := Derived hkdf secret) calls _ (fun _ _ hnone => ?_)
    fun cache h call _ => hstep cache h call
  cases hnone

/-! ## What clients decrypt -/

/-- The keys that `/me` hands out in an epoch and the next. -/
def HandedOut (hkdf : Hkdf32) (secret : String) (epoch : Nat) (key : U8Array 32) : Prop :=
  ∃ e : Int, epoch - 1 ≤ e ∧ e ≤ epoch + 1 ∧
    deriveServerEventKey hkdf secret none (some e) = some key

/-- Of the keys handed out, only its own opens what is published, and only with its epoch. -/
def AuthenticEvent (hkdf : Hkdf32) (aead : Aes256Gcm) (stringify : C → String) (secret : String)
    (call : Publication C) : Prop :=
  ∀ key ciphertext,
    deriveServerEventKey hkdf secret none (some (currentEpoch call.now : Int)) = some key →
    aead.encrypt key call.random.nonce
        (padToBucket call.random (asBytes (stringify call.content)))
        (epochAad (currentEpoch call.now)) = .ok ciphertext →
      Authentic aead (HandedOut hkdf secret (currentEpoch call.now)) key call.random.nonce
        ciphertext (currentEpoch call.now)

/-- A client with the keys of `/me`, in the epoch of the event or the next, decrypts the event to
its text with its epoch, and fails with any other. -/
def EpochEvents (hkdf : Hkdf32) (aead : Aes256Gcm) (stringify : C → String) (secret : String)
    (cache : EpochKeyCache) (call : Publication C) : Prop :=
  ∀ event ∈ (publishEvent hkdf aead stringify cache (some secret) call.now call.random call.kind
      call.content call.hubId).1,
    ∀ now keys, currentEpoch now = event.epoch ∨ currentEpoch now = event.epoch + 1 →
      meEventKeys hkdf (some secret) now = some keys →
    ∀ s s', mobileSetServerEventKeys s keys.serverEventKeyHex (some keys.serverEventKeyPrevHex) =
        .ok s' →
      ∀ epoch, mobileDecryptServerEventWithEpoch aead s' event.payload epoch =
        if epoch.toNat = event.epoch then .ok (stringify call.content)
        else .err .decryptionFailed

/-- A client with the hub's key decrypts the hub's event to its text. -/
def HubEvents (aead : Aes256Gcm) (stringify : C → String) (random : Random) (content : C)
    (hubKey : U8Array 32) : Prop :=
  ∀ payload ∈ encryptHubEvent aead stringify random content hubKey none,
    ∀ s hubId, s.hubKeys hubId = some hubKey →
      mobileDecryptHubEvent aead s payload hubId = .ok (stringify content)

theorem keyFromHex_hexEncode (key : U8Array 32) : keyFromHex (hexEncode key.bytes) = .ok key := by
  have harray : tryInto 32 key.bytes .invalidSecretKey = .ok key := dif_pos key.length_eq
  simp only [keyFromHex, hexDecode_hexEncode, mapErr_ok, Outcome.ok_bind, harray]

/-- What a client does with the keys of `/me`. -/
theorem setServerEventKeys_me {now : Nat} {keys : EventKeys}
    (h : meEventKeys hkdf (some secret) now = some keys) {s s' : MobileState}
    (hset : mobileSetServerEventKeys s keys.serverEventKeyHex (some keys.serverEventKeyPrevHex) =
      .ok s') :
    ∃ current previous,
      deriveServerEventKey hkdf secret none (some (currentEpoch now : Int)) = some current ∧
      deriveServerEventKey hkdf secret none (some ((currentEpoch now : Int) - 1)) =
        some previous ∧
      s'.serverEventCurrentKey = some current ∧ s'.serverEventPreviousKey = some previous := by
  obtain ⟨secret', hsecret, h⟩ := Option.bind_eq_some_iff.mp h
  obtain rfl := Option.some.inj (Option.eq_some_of_filter_eq_some hsecret)
  obtain ⟨current, hcurrent, h⟩ := Option.bind_eq_some_iff.mp h
  obtain ⟨previous, hprevious, h⟩ := Option.bind_eq_some_iff.mp h
  obtain rfl := Option.some.inj h
  simp only [mobileSetServerEventKeys, keyFromHex_hexEncode, Outcome.ok_bind,
    Outcome.pure_eq] at hset
  obtain rfl := Outcome.ok.inj hset
  exact ⟨current, previous, hcurrent, hprevious, rfl, rfl⟩

/-- What is published under a secret: the padded text, encrypted with the key of the epoch. -/
theorem publishEvent_eq_some (hsecret : secret ≠ "") {cache : EpochKeyCache}
    (hcache : Derived hkdf secret cache) {call : Publication C} {event : Event}
    (h : event ∈ (publishEvent hkdf aead stringify cache (some secret) call.now call.random
      call.kind call.content call.hubId).1) :
    ∃ key ciphertext,
      deriveServerEventKey hkdf secret none (some (currentEpoch call.now : Int)) = some key ∧
      aead.encrypt key call.random.nonce
        (padToBucket call.random (asBytes (stringify call.content)))
        (epochAad (currentEpoch call.now)) = .ok ciphertext ∧
      (asBytes (stringify call.content)).length < 2 ^ 32 ∧
      event.payload = packet call.random.nonce ciphertext ∧
      event.epoch = currentEpoch call.now := by
  have hfilter : (some secret).filter (· ≠ "") = some secret := by simpa using hsecret
  unfold publishEvent at h
  split_ifs at h
  · cases h
  simp only [hfilter] at h
  obtain ⟨payload, hpayload, rfl⟩ := Option.map_eq_some_iff.mp h
  have hspec := (getOrDeriveEpochKey_spec hcache (currentEpoch call.now)).2
  unfold encryptEventContent at hpayload
  split at hpayload
  · cases hpayload
  rename_i key cache' hkey
  rw [hkey] at hspec
  obtain ⟨data, hdata, rfl⟩ := Option.map_eq_some_iff.mp hpayload
  unfold symmetricEncrypt at hdata
  split_ifs at hdata with hsize
  split at hdata
  · rename_i ciphertext hencrypt
    obtain rfl := Option.some.inj hdata
    refine ⟨key, ciphertext, hspec key rfl, hencrypt, ?_, rfl, rfl⟩
    have hfits := le_growBucket MIN_BUCKET_SIZE
      (4 + (asBytes (stringify call.content)).length) (by decide)
    rw [not_or, length_padToBucket, MAX_INPUT_SIZE] at hsize
    omega
  · cases hdata

/-- **The server's events open with the keys of `/me`, in their epoch only.** -/
theorem epochEvents_open (haead : AsSpecified aead) {cache : EpochKeyCache}
    (hcache : Derived hkdf secret cache) {call : Publication C}
    (hauth : AuthenticEvent hkdf aead stringify secret call) :
    EpochEvents hkdf aead stringify secret cache call := by
  intro event hevent now keys hnow hkeys s s' hset epoch
  have hsecret : secret ≠ "" := by
    rintro rfl
    cases hkeys
  obtain ⟨key, ciphertext, hkey, hencrypt, hshort, hpayload, hepoch⟩ :=
    publishEvent_eq_some hsecret hcache hevent
  obtain ⟨current, previous, hcurrent, hprevious, hs', hs''⟩ := setServerEventKeys_me hkeys hset
  rw [hepoch] at hnow ⊢
  have hhanded : HandedOut hkdf secret (currentEpoch call.now) current ∧
      HandedOut hkdf secret (currentEpoch call.now) previous :=
    ⟨⟨_, by omega, by omega, hcurrent⟩, ⟨_, by omega, by omega, hprevious⟩⟩
  -- the key of the event is the current one in its epoch, and the previous one in the next
  have hown : key = current ∨ key = previous := by
    rcases hnow with hnow | hnow
    · rw [hnow, hkey] at hcurrent
      exact .inl (Option.some.inj hcurrent)
    · rw [hnow, Nat.cast_succ, Int.add_sub_cancel, hkey] at hprevious
      exact .inr (Option.some.inj hprevious)
  rw [hpayload, decryptServerEvent_packet haead hencrypt (hauth key ciphertext hkey hencrypt) hs'
    hs'' hhanded hown, unpad_padToBucket _ hshort]

theorem encryptHubEvent_eq_some {random : Random} {content : C} {hubKey : U8Array 32}
    {payload : String}
    (h : payload ∈ encryptHubEvent aead stringify random content hubKey none) :
    ∃ ciphertext, aead.encrypt hubKey random.nonce
        (padToBucket random (asBytes (stringify content))) (asBytes labelHubEvent) =
          .ok ciphertext ∧ payload = packet random.nonce ciphertext := by
  unfold encryptHubEvent at h
  dsimp only at h
  split at h
  · rename_i ciphertext hencrypt
    exact ⟨ciphertext, hencrypt, (Option.some.inj h).symm⟩
  · cases h

/-- **A hub's event never opens to its text**: what it opens to is the padded text. -/
theorem hubEvent_padded (haead : AsSpecified aead) {random : Random} {content : C}
    {hubKey : U8Array 32} {payload : String}
    (h : payload ∈ encryptHubEvent aead stringify random content hubKey none) {s : MobileState}
    {hubId : String} (hkey : s.hubKeys hubId = some hubKey) :
    mobileDecryptHubEvent aead s payload hubId ≠ .ok (stringify content) := by
  obtain ⟨ciphertext, hencrypt, rfl⟩ := encryptHubEvent_eq_some h
  rw [decryptHubEvent_packet haead hencrypt hkey, ne_eq, fromUtf8_ok]
  exact padToBucket_ne random _

/-- **Both formats give the text back exactly if the hub's event cannot be encrypted.** -/
theorem formats_iff (haead : AsSpecified aead) {secret : String}
    (earlier : List (Publication C)) {call : Publication C}
    (hauth : AuthenticEvent hkdf aead stringify secret call) (random : Random)
    (hubKey : U8Array 32) :
    EpochEvents hkdf aead stringify secret (cacheAfter hkdf aead stringify secret earlier) call ∧
        HubEvents aead stringify random call.content hubKey ↔
      encryptHubEvent aead stringify random call.content hubKey none = none := by
  rw [and_iff_right (epochEvents_open haead (cacheAfter_derived secret earlier) hauth)]
  constructor
  · intro hhub
    by_contra hsome
    obtain ⟨payload, hpayload⟩ := Option.ne_none_iff_exists'.mp hsome
    have hkey : (fun _ => some hubKey : String → Option (U8Array 32)) "hub" = some hubKey := rfl
    exact hubEvent_padded haead hpayload (s := { hubKeys := fun _ => some hubKey }) hkey
      (hhub payload hpayload _ "hub" hkey)
  · intro hnone payload hpayload
    rw [hnone] at hpayload
    cases hpayload

end Content

/-! ## An event of the server and one of a hub -/

def sampleSecret : String := "00112233445566778899aabbccddeeff00112233445566778899aabbccddeeff"

/-- Random bytes whose padding is zero. -/
def sampleRandom : Random where
  nonce := U8Array.ofHex 12 "0a0b0c0d0e0f101112131415"
  padding n := ⟨List.replicate n 0, List.length_replicate⟩

def sampleContent : String := "\x7b\"type\":\"call:ring\"\x7d"

def sampleHubKey : U8Array 32 :=
  U8Array.ofHex 32 "ffeeddccbbaa99887766554433221100ffeeddccbbaa99887766554433221100"

/-- A call on the first day of 2026, in epoch 20454. -/
def sampleCall : Publication String where
  now := 1767225600000
  random := sampleRandom
  kind := 1000
  content := sampleContent
  hubId := "hub"

/-- HKDF under the secret for the epochs from 20453 to 20455. -/
def sampleHkdf : Hkdf32 := fun _ _ info =>
  if info = epochAad 20453 then
    U8Array.ofHex 32 "625e049559ce56188f407d3a8e397768fadd7506def87e3060a6d531a2505f6f"
  else if info = epochAad 20454 then
    U8Array.ofHex 32 "3d258f75b8f7079b38b8a76308d9de16b2618486bf3810d5e3c4903935741da4"
  else U8Array.ofHex 32 "1687e7999443b991c74b6c62e3337c9f90f92c04546f341a954bf643add58f57"

/-- AES-256-GCM on the event of the server. -/
def serverRow : Row where
  key := sampleHkdf [] [] (epochAad 20454)
  nonce := sampleRandom.nonce
  msg := padToBucket sampleRandom (asBytes sampleContent)
  aad := epochAad 20454
  ciphertext := (U8Array.ofHex 528 (
    "7fa42c8a1e5afa2a34ac33ccf2d413f51fb2711db2cf059e4be561fafabd285660c575d83f70ef693c34cdb8" ++
    "e46d36d7fa036ae710babf5cc503891e11a709636dd61658629566580c61566e0b179d8c0377b3d39ed8fe13" ++
    "907864cdb395895e51e7f53a1706594d453a45ba7dd5f8d4a741ee4dc2fb8180e400e3bc1d185826f1ed4dc4" ++
    "9487e2b38f75c6061a88268b58c023fe90dbdfedef831803ba8b159698ab0e1186a1667ba54461eb87659c1a" ++
    "0687fd67658c856258e7710c1cd77c81b0ac8643e3fb1b71b21ba5552ae95713ab9f1a4249a0fa34352496b7" ++
    "69d2e4bbfb1c89285ea9476925458e82a33b72e86ef66630d5987ddcb0261e93913044622f13efa796f40b9d" ++
    "926f6ea2a87d7b4f2fc9e1824337719643ecdad25722596ec112fa334a574a4386a0601d0542df98e46867ca" ++
    "e83987b3fd18851035e60ed3e6d09d1195c2dced837f23feb607905b88697226caab8d1ecb8ec340c24f0e2a" ++
    "826f2a28145bb08fb6818653e3ddc2115c3f071146fb9762a910b63db51e95596520208dcb99fe5db59980f3" ++
    "02317f1d84a9e25dc16e222915520ee16298aec4f4b9a3310d6b56f1a8c80df925d12dcf815627b671c7f4a9" ++
    "07f6b3dbac5fcee34fc52b5ff825f0c62beaee15667d8cd9d562334a4b0814d56929083231416040b0bc6433" ++
    "272f5c85d1f84bb37f7bcf7394d6d172730aae994f29bea16bef347d0e30492af8eee136fd157a7fec2de811")).bytes

/-- AES-256-GCM on the event of the hub. -/
def hubRow : Row where
  key := sampleHubKey
  nonce := sampleRandom.nonce
  msg := padToBucket sampleRandom (asBytes sampleContent)
  aad := asBytes labelHubEvent
  ciphertext := (U8Array.ofHex 528 (
    "5bf6774914489b2c897b6623e9a63489b5d4b80698171d2adb1965bfbc1066eff74316efc5fa379f631c3725" ++
    "542cb71971ae8fe5226cb9e9595b74862b4f44654f7597d13e080095ba0da11e7a1808ca79fb759870458fc6" ++
    "bb0e5c8ef1ab7eb8bb01831d2440b12c86593533a71aba12d56ee49460f265961485d3c51c7d538f356ecda2" ++
    "b054204ae4854f034236f049ec70e52559327f691ed199fabafd3952a946aa57fe5f1f4a90fb8544d7ee7025" ++
    "9c9f87a7015742eb69c52a860afa945746237f055c0e6b2e5d7012afea960bc6ff622d0cc9f3654df2098227" ++
    "59a290c22df9cce907e2c0b1ba516fee68b87d434b92c95e5612d894043bdf1b52ea87d7f72a0ca4f6d20516" ++
    "32d7fd729757dea960d35c242a5945048e9cbcee3c0ef19383dd3f9352569c685fa249259779c5294f9ea6dd" ++
    "1f9af790b80654385ee444ceb410c97bde30d778a48e2a78e1c2c441d3f9589baa116761964470d65da7a506" ++
    "c7d1922550d4ca5505ce23d31dfdba41284907d765129db23d0410fa4220f2c7fbd1f512276587a74233e8a3" ++
    "f70465819622e9f0e3adf0df345b0cac8368aedb4706528173f0b8eda1993a3445e94d15487c1d1a349b9e65" ++
    "83b1506efeeb0b0e6fe3f0687884748f299205af3ffe5041cc322057c8d6bd0b80529e5c283e29f02e51ba70" ++
    "949729ec3fe84a81aa7804fd5f52bacf5bc7558b61f3484eaa374738add286f3a27591937faea13047d8385e")).bytes

def sampleAead : Aes256Gcm := pairAead serverRow hubRow

theorem sampleAead_asSpecified : AsSpecified sampleAead := by
  have hbucket : growBucket MIN_BUCKET_SIZE (4 + (asBytes sampleContent).length) = 512 := by
    have hlen : (asBytes sampleContent).length = 20 := by decide
    rw [hlen, growBucket, if_neg (by decide), MIN_BUCKET_SIZE]
  refine pairAead_asSpecified ?_ ?_ (labelHubEvent_ne_epochAad 20454)
  · rw [serverRow, U8Array.length_eq, length_padToBucket, hbucket]
  · rw [hubRow, U8Array.length_eq, length_padToBucket, hbucket]

theorem sampleAead_authentic :
    AuthenticEvent sampleHkdf sampleAead id sampleSecret sampleCall := by
  intro key ciphertext hkey hencrypt
  have hepoch : currentEpoch sampleCall.now = 20454 := by decide
  rw [hepoch] at hkey hencrypt ⊢
  rw [deriveServerEventKey] at hkey
  obtain ⟨ikm, -, hkey⟩ := Option.bind_eq_some_iff.mp hkey
  have hkey : serverRow.key = key := Option.some.inj hkey
  have hencrypt : sampleAead.encrypt serverRow.key serverRow.nonce serverRow.msg serverRow.aad =
      .ok ciphertext := by rwa [hkey]
  have hrow : sampleAead.encrypt serverRow.key serverRow.nonce serverRow.msg serverRow.aad =
      .ok serverRow.ciphertext := if_pos rfl
  rw [← hkey, ← Except.ok.inj (hrow.symm.trans hencrypt)]
  exact pairAead_authentic _ rfl rfl

/-- The hub's event is encrypted. -/
theorem sample_encrypted : encryptHubEvent sampleAead id sampleRandom sampleContent sampleHubKey
    none = some (packet sampleRandom.nonce hubRow.ciphertext) := by
  have hrow : sampleAead.encrypt sampleHubKey sampleRandom.nonce
      (padToBucket sampleRandom (asBytes sampleContent)) (asBytes labelHubEvent) =
        .ok hubRow.ciphertext := by
    dsimp only [sampleAead, pairAead]
    rw [if_neg, if_pos]
    · rfl
    · intro heq
      simp only [Prod.mk.injEq] at heq
      exact labelHubEvent_ne_epochAad 20454 heq.2.2.2
  simp only [encryptHubEvent, id_eq, hrow]
  rfl

/-- The server's event opens to its text, the hub's does not. -/
theorem sample_not_both :
    ¬ (EpochEvents sampleHkdf sampleAead id sampleSecret
        (cacheAfter sampleHkdf sampleAead id sampleSecret [sampleCall]) sampleCall ∧
      HubEvents sampleAead id sampleRandom sampleContent sampleHubKey) := by
  intro hboth
  have hnone := (formats_iff sampleAead_asSpecified [sampleCall] sampleAead_authentic sampleRandom
    sampleHubKey).mp hboth
  have hsome : encryptHubEvent sampleAead id sampleRandom sampleContent sampleHubKey none =
      none := hnone
  rw [sample_encrypted] at hsome
  cases hsome

/-- What the client makes of the hub's event is not its text. -/
theorem call_ring_padded : ¬ HubEvents sampleAead id sampleRandom sampleContent sampleHubKey := by
  intro hhub
  have hkey : (fun _ => some sampleHubKey : String → Option (U8Array 32)) "hub" =
      some sampleHubKey := rfl
  exact hubEvent_padded (s := { hubKeys := fun _ => some sampleHubKey }) sampleAead_asSpecified
    sample_encrypted hkey (hhub _ sample_encrypted _ "hub" hkey)

end Llamenos.Worker.EventEncryption

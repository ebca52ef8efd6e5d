import Llamenos.Worker.EventEncryption
import Mathlib

/-!
# Padding to a bucket

`pad_to_bucket` and `unpad` of `packages/crypto/src/padding.rs`, the two `padToBucket` of
`apps/worker/lib/hub-event-crypto.ts` and `ws-events.ts`, and `unpadFromBucket`, on the bytes of
their buffers. What fills the padding is a parameter. The random source of each worker function has
a limit: `crypto.getRandomValues` throws above the quota of the runtime, which for Web Crypto is
65536 bytes, and `ffi_random_bytes` refuses more than 100 MiB.

Results:
* `growBucket_isBucket`: the loop finds the least power of two.
* `padToBucket_core`, `padWith_eq`: what the three encoders write, and when they fail.
* `decodes`: both decoders take the same buffers, views into larger ones too, and give the same part
  of them.
* `padding_sound_iff`: **all encoders and decoders agree on a plaintext exactly if the padding is
  within the limits of the random sources**.
-/

namespace Llamenos.Worker.Padding

open Llamenos.Lib Llamenos.Lib.Outcome Llamenos.Crypto Llamenos.Crypto.Events
open Llamenos.Worker.EventEncryption (growBucket MIN_BUCKET_SIZE MAX_INPUT_SIZE le_growBucket)

/-! ## The code -/

/-- The bytes from an offset on are overwritten; it fails where they do not fit. -/
def writeAt (buffer : Bytes) (offset : Nat) (bytes : Bytes) : Option Bytes :=
  if offset + bytes.length ≤ buffer.length then
    some (buffer.take offset ++ bytes ++ buffer.drop (offset + bytes.length))
  else none

/-- `out[offset..].copy_from_slice(bytes)`, of as many bytes. -/
def copyInto (out : Bytes) (offset : Nat) (bytes : Bytes) : Call Bytes :=
  match writeAt out offset bytes with
  | some out => .ok out
  | none => .panic .bounds

/-- What a random source fills a number of bytes with. -/
abbrev Fill := (n : Nat) → U8Array n

/-- `pad_to_bucket`, where `getrandom` succeeds. -/
def Core.padToBucket (fill : Fill) (plaintext : Bytes) : Call Bytes := do
  let totalNeeded := 4 + plaintext.length
  let bucket := growBucket MIN_BUCKET_SIZE totalNeeded
  let out ← copyInto (List.replicate bucket 0) 0 (toLeBytes plaintext.length)
  let out ← copyInto out 4 plaintext
  let paddingStart := 4 + plaintext.length
  if paddingStart < bucket then copyInto out paddingStart (fill (bucket - paddingStart)).bytes
  else pure out

/-- `unpad`. -/
def Core.unpad (padded : Bytes) : Call Bytes :=
  if padded.length < 4 then .err .invalidCiphertext
  else
    let actualLen := fromLeBytes (padded.take 4)
    if actualLen + 4 > padded.length then .err .invalidCiphertext
    else slice padded 4 (4 + actualLen)

/-- Both `padToBucket`, with the source of their padding; `none` where it throws. -/
def padWith (random : Nat → Option Bytes) (plaintext : Bytes) : Option Bytes := do
  let totalNeeded := 4 + plaintext.length
  let bucket := growBucket MIN_BUCKET_SIZE totalNeeded
  let padded ← writeAt (List.replicate bucket 0) 0 (toLeBytes plaintext.length)
  let padded ← writeAt padded 4 plaintext
  if totalNeeded < bucket then
    (random (bucket - totalNeeded)).bind fun padding => writeAt padded totalNeeded padding
  else some padded

/-- `crypto.getRandomValues`, which throws above the quota, if there is one. -/
def getRandomValues (quota : Option Nat) (fill : Fill) (n : Nat) : Option Bytes :=
  if quota.all (n ≤ ·) then some (fill n).bytes else none

/-- `randomBytes`, which throws where `ffi_random_bytes` refuses the length. -/
def randomBytes (fill : Fill) (n : Nat) : Option Bytes :=
  if n > MAX_INPUT_SIZE then none else some (fill n).bytes

/-- `padToBucket` of `hub-event-crypto.ts`. -/
def HubEventCrypto.padToBucket (quota : Option Nat) (fill : Fill) (plaintext : Bytes) :
    Option Bytes :=
  padWith (getRandomValues quota fill) plaintext

/-- `padToBucket` of `ws-events.ts`. -/
def WsEvents.padToBucket (fill : Fill) (plaintext : Bytes) : Option Bytes :=
  padWith (randomBytes fill) plaintext

/-- A `Uint8Array`: a part of a buffer. -/
structure View where
  buffer : Bytes
  byteOffset : Nat
  length : Nat
  fits : byteOffset + length ≤ buffer.length

def View.bytes (v : View) : Bytes := (v.buffer.drop v.byteOffset).take v.length

/-- `new DataView(buffer, byteOffset).getUint32(0, true)`: the view goes to the end of the
buffer. -/
def View.getUint32 (v : View) : Option Nat :=
  let rest := v.buffer.drop v.byteOffset
  if 4 ≤ rest.length then some (fromLeBytes (rest.take 4)) else none

/-- `slice`. -/
def View.slice (v : View) (start stop : Nat) : Bytes := (v.bytes.take stop).drop start

def unpadFromBucket (padded : View) : Option Bytes :=
  if padded.length < 4 then none
  else padded.getUint32.bind fun actualLen =>
    if actualLen + 4 > padded.length then none else some (padded.slice 4 (4 + actualLen))

/-! ## The property -/

/-- The bucket of a length: the least power of two that is at least 512 and has room for it and for
four bytes. -/
def IsBucket (length bucket : Nat) : Prop :=
  IsLeast {b | (∃ k, b = 2 ^ k) ∧ max MIN_BUCKET_SIZE (4 + length) ≤ b} bucket

/-- The buffer has the length of the bucket, and both decoders find the plaintext in it. -/
structure Padded (plaintext padded : Bytes) : Prop where
  bucket : IsBucket plaintext.length padded.length
  unpad : Core.unpad padded = .ok plaintext
  unpadFromBucket : ∀ v : View, v.bytes = padded → Padding.unpadFromBucket v = some plaintext

/-- The decoders give the same part of a buffer, or fail both. -/
structure Decodes (v : View) : Prop where
  returns : (Core.unpad v.bytes).Returns
  agree : ∀ plaintext, Core.unpad v.bytes = .ok plaintext ↔ unpadFromBucket v = some plaintext
  part : ∀ plaintext, unpadFromBucket v = some plaintext → plaintext <:+: v.bytes

/-- The encoders and decoders agree on a plaintext, whatever fills the padding. -/
structure Sound (quota : Option Nat) (plaintext : Bytes) : Prop where
  core : ∀ fill, ∃ padded, Core.padToBucket fill plaintext = .ok padded ∧ Padded plaintext padded
  hubEventCrypto : ∀ fill, ∃ padded,
    HubEventCrypto.padToBucket quota fill plaintext = some padded ∧ Padded plaintext padded
  wsEvents : ∀ fill, ∃ padded,
    WsEvents.padToBucket fill plaintext = some padded ∧ Padded plaintext padded
  decodes : ∀ v, Decodes v

/-! ## The bucket -/

/-- The loop, from any power of two on. -/
theorem growBucket_isLeast (n j : Nat) :
    IsLeast {b | (∃ k, b = 2 ^ k) ∧ max (2 ^ j) n ≤ b} (growBucket (2 ^ j) n) := by
  induction hm : n - 2 ^ j using Nat.strong_induction_on generalizing j with
  | _ m ih =>
    subst hm
    have hpos : 0 < 2 ^ j := Nat.two_pow_pos j
    rw [growBucket]
    split_ifs with hgrow
    · have hdouble : 2 ^ j * 2 = 2 ^ (j + 1) := (Nat.pow_succ 2 j).symm
      have hnext := ih (n - 2 ^ (j + 1)) (by omega) (j + 1) rfl
      rw [hdouble]
      refine ⟨⟨hnext.1.1, ?_⟩, ?_⟩
      · have := hnext.1.2
        omega
      · -- a power of two above the bucket is at least its double
        rintro b ⟨⟨k, hk⟩, hb⟩
        have hlt : 2 ^ j < 2 ^ k := by omega
        have hle : 2 ^ (j + 1) ≤ 2 ^ k :=
          Nat.pow_le_pow_right (by omega) ((Nat.pow_lt_pow_iff_right (by omega)).mp hlt)
        exact hnext.2 ⟨⟨k, hk⟩, by omega⟩
    · exact ⟨⟨⟨j, rfl⟩, by omega⟩, fun b hb => le_trans (le_max_left _ _) hb.2⟩

/-- **The loop finds the least power of two.** -/
theorem growBucket_isBucket (length : Nat) :
    IsBucket length (growBucket MIN_BUCKET_SIZE (4 + length)) :=
  growBucket_isLeast (4 + length) 9

theorem isBucket_iff {length bucket : Nat} :
    IsBucket length bucket ↔ bucket = growBucket MIN_BUCKET_SIZE (4 + length) := by
  constructor
  · intro h
    exact h.unique (growBucket_isBucket length)
  · rintro rfl
    exact growBucket_isBucket length

/-! ## The encoders -/

theorem writeAt_append (front rest bytes : Bytes) (h : bytes.length ≤ rest.length) :
    writeAt (front ++ rest) front.length bytes =
      some (front ++ bytes ++ rest.drop bytes.length) := by
  have hfits : front.length + bytes.length ≤ (front ++ rest).length := by
    rw [List.length_append]
    omega
  rw [writeAt, if_pos hfits, List.take_left, List.drop_length_add_append]

/-- The length, the plaintext and the padding. -/
def layout (plaintext padding : Bytes) : Bytes :=
  toLeBytes plaintext.length ++ plaintext ++ padding

theorem length_layout (plaintext padding : Bytes) :
    (layout plaintext padding).length = 4 + plaintext.length + padding.length := by
  simp only [layout, List.length_append, length_toLeBytes]

variable {plaintext : Bytes} {bucket : Nat}

theorem header_written (h : 4 + plaintext.length ≤ bucket) :
    writeAt (List.replicate bucket 0) 0 (toLeBytes plaintext.length) =
      some (toLeBytes plaintext.length ++ List.replicate (bucket - 4) 0) := by
  have hheader := length_toLeBytes plaintext.length
  have hwrite := writeAt_append [] (List.replicate bucket 0) (toLeBytes plaintext.length)
    (by rw [hheader, List.length_replicate]; omega)
  rwa [hheader, List.drop_replicate] at hwrite

theorem plaintext_written (h : 4 + plaintext.length ≤ bucket) :
    writeAt (toLeBytes plaintext.length ++ List.replicate (bucket - 4) 0) 4 plaintext =
      some (layout plaintext (List.replicate (bucket - (4 + plaintext.length)) 0)) := by
  have hwrite := writeAt_append (toLeBytes plaintext.length) (List.replicate (bucket - 4) 0)
    plaintext (by rw [List.length_replicate]; omega)
  rwa [length_toLeBytes, List.drop_replicate, Nat.sub_sub] at hwrite

/-- The padding takes the place of the remaining zeros. -/
theorem padding_written {padding : Bytes} (h : padding.length = bucket - (4 + plaintext.length)) :
    writeAt (layout plaintext (List.replicate (bucket - (4 + plaintext.length)) 0))
      (4 + plaintext.length) padding = some (layout plaintext padding) := by
  have hfront : (toLeBytes plaintext.length ++ plaintext).length = 4 + plaintext.length := by
    rw [List.length_append, length_toLeBytes]
  have hwrite := writeAt_append (toLeBytes plaintext.length ++ plaintext)
    (List.replicate (bucket - (4 + plaintext.length)) 0) padding (by simp [h])
  rwa [hfront, List.drop_of_length_le (by simp [h]), List.append_nil] at hwrite

/-- How much is missing to the bucket. -/
def missing (plaintext : Bytes) : Nat :=
  growBucket MIN_BUCKET_SIZE (4 + plaintext.length) - (4 + plaintext.length)

theorem missing_add (plaintext : Bytes) : 4 + plaintext.length + missing plaintext =
    growBucket MIN_BUCKET_SIZE (4 + plaintext.length) := by
  have hfits := le_growBucket MIN_BUCKET_SIZE (4 + plaintext.length) (by decide)
  unfold missing
  omega

theorem layout_full {n : Nat} (hn : n = 0) (padding : U8Array n) :
    layout plaintext (List.replicate n 0) = layout plaintext padding.bytes := by
  subst hn
  rw [List.eq_nil_of_length_eq_zero padding.length_eq]
  rfl

/-- **What the core writes.** -/
theorem padToBucket_core (fill : Fill) (plaintext : Bytes) :
    Core.padToBucket fill plaintext =
      .ok (layout plaintext (fill (missing plaintext)).bytes) := by
  have hfits := le_growBucket MIN_BUCKET_SIZE (4 + plaintext.length) (by decide)
  simp only [Core.padToBucket, copyInto, header_written hfits, plaintext_written hfits, ok_bind]
  split_ifs with hroom
  · rw [padding_written (U8Array.length_eq _)]
    rfl
  · exact congrArg Outcome.ok (layout_full (Nat.sub_eq_zero_of_le (Nat.le_of_not_lt hroom)) _)

/-- **What the worker writes**, where its random source gives the padding. -/
theorem padWith_eq {random : Nat → Option Bytes} {fill : Fill}
    (h : ∀ n bytes, random n = some bytes → bytes = (fill n).bytes) (plaintext : Bytes) :
    padWith random plaintext =
      if missing plaintext = 0 ∨ (random (missing plaintext)).isSome then
        some (layout plaintext (fill (missing plaintext)).bytes)
      else none := by
  have hfits := le_growBucket MIN_BUCKET_SIZE (4 + plaintext.length) (by decide)
  simp only [padWith, header_written hfits, plaintext_written hfits, Option.bind_eq_bind,
    Option.bind_some]
  by_cases hroom : 4 + plaintext.length < growBucket MIN_BUCKET_SIZE (4 + plaintext.length)
  · have hmissing : missing plaintext ≠ 0 := Nat.sub_ne_zero_of_lt hroom
    rw [if_pos hroom]
    change (random (missing plaintext)).bind _ = _
    cases hrandom : random (missing plaintext) with
    | none => rw [Option.bind_none, if_neg (by simpa using hmissing)]
    | some bytes =>
      obtain rfl := h _ _ hrandom
      have hlength : (fill (missing plaintext)).bytes.length =
          growBucket MIN_BUCKET_SIZE (4 + plaintext.length) - (4 + plaintext.length) :=
        U8Array.length_eq _
      rw [Option.bind_some, padding_written hlength, if_pos (.inr rfl)]
  · have hmissing : missing plaintext = 0 := Nat.sub_eq_zero_of_le (Nat.le_of_not_lt hroom)
    rw [if_neg hroom, if_pos (.inl hmissing)]
    exact congrArg some (layout_full hmissing _)

/-! ## The decoders -/

theorem take_layout (plaintext padding : Bytes) :
    (layout plaintext padding).take 4 = toLeBytes plaintext.length := by
  rw [layout, List.append_assoc, List.take_left' (length_toLeBytes _)]

theorem View.length_bytes (v : View) : v.bytes.length = v.length := by
  have hfits := v.fits
  rw [View.bytes, List.length_take, List.length_drop]
  omega

/-- **`getUint32` reads the first bytes of the view**, wherever it is in its buffer. -/
theorem View.getUint32_eq (v : View) (h : 4 ≤ v.length) :
    v.getUint32 = some (fromLeBytes (v.bytes.take 4)) := by
  have hfits := v.fits
  have hrest : 4 ≤ (v.buffer.drop v.byteOffset).length := by
    rw [List.length_drop]
    omega
  rw [View.getUint32, if_pos hrest, View.bytes, List.take_take, Nat.min_eq_left h]

/-- What is read of the bytes of a buffer. -/
def decoded (padded : Bytes) : Option Bytes :=
  if 4 ≤ padded.length ∧ fromLeBytes (padded.take 4) + 4 ≤ padded.length then
    some ((padded.drop 4).take (fromLeBytes (padded.take 4)))
  else none

theorem take_drop_eq (padded : Bytes) (n : Nat) :
    (padded.take (4 + n)).drop 4 = (padded.drop 4).take n := by
  rw [List.drop_take, Nat.add_sub_cancel_left]

/-- **The core decodes, or returns an error.** -/
theorem unpad_eq (padded : Bytes) :
    Core.unpad padded = (decoded padded).elim (.err .invalidCiphertext) .ok := by
  unfold Core.unpad decoded
  by_cases hshort : padded.length < 4
  · rw [if_pos hshort, if_neg (by omega)]
    rfl
  · rw [if_neg hshort]
    dsimp only
    split_ifs with hlong h h
    · exact absurd h.2 (by omega)
    · rfl
    · rw [slice_ok (by omega) (by omega), take_drop_eq]
      rfl
    · exact absurd ⟨by omega, by omega⟩ h

/-- **The worker decodes what the core does.** -/
theorem unpadFromBucket_eq (v : View) : unpadFromBucket v = decoded v.bytes := by
  unfold unpadFromBucket decoded
  rw [v.length_bytes]
  by_cases hshort : v.length < 4
  · rw [if_pos hshort, if_neg (by omega)]
  · rw [if_neg hshort, v.getUint32_eq (by omega), Option.bind_some, View.slice, take_drop_eq]
    split_ifs with hlong h h
    · exact absurd h.2 (by omega)
    · rfl
    · rfl
    · exact absurd ⟨by omega, by omega⟩ h

theorem decodes (v : View) : Decodes v := by
  have hcore := unpad_eq v.bytes
  refine ⟨?_, fun plaintext => ?_, fun plaintext h => ?_⟩
  · rw [hcore]
    cases decoded v.bytes <;> simp
  · rw [hcore, unpadFromBucket_eq]
    cases decoded v.bytes <;> simp
  · rw [unpadFromBucket_eq, decoded] at h
    split_ifs at h
    obtain rfl := Option.some.inj h
    exact (List.take_prefix _ _).isInfix.trans (List.drop_suffix _ _).isInfix

/-! ## Round trips -/

theorem decoded_layout (hlen : plaintext.length < 2 ^ 32) (padding : Bytes) :
    decoded (layout plaintext padding) = some plaintext := by
  have hdrop : (layout plaintext padding).drop 4 = plaintext ++ padding := by
    rw [layout, List.append_assoc, List.drop_left' (length_toLeBytes _)]
  have hread : fromLeBytes (toLeBytes plaintext.length) = plaintext.length := by
    rw [fromLeBytes_toLeBytes, Nat.mod_eq_of_lt hlen]
  have hin : 4 ≤ (layout plaintext padding).length ∧
      plaintext.length + 4 ≤ (layout plaintext padding).length := by
    rw [length_layout]
    omega
  rw [decoded, take_layout, hread, if_pos hin, hdrop, List.take_left]

/-- **A buffer of the layout that fills its bucket is padded.** -/
theorem padded_layout (hlen : plaintext.length < 2 ^ 32) (fill : Fill) :
    Padded plaintext (layout plaintext (fill (missing plaintext)).bytes) := by
  refine ⟨?_, ?_, fun v hv => ?_⟩
  · rw [length_layout, (fill _).length_eq, missing_add]
    exact growBucket_isBucket _
  · rw [unpad_eq, decoded_layout hlen]
    rfl
  · rw [unpadFromBucket_eq, hv, decoded_layout hlen]

/-- An encoder of the worker pads exactly if nothing is missing or its source gives it. -/
theorem padWith_padded_iff (hlen : plaintext.length < 2 ^ 32) (random : Fill → Nat → Option Bytes)
    (limit : Nat → Prop) [DecidablePred limit]
    (h : ∀ fill n, random fill n = if limit n then some (fill n).bytes else none) :
    (∀ fill, ∃ padded, padWith (random fill) plaintext = some padded ∧ Padded plaintext padded) ↔
      missing plaintext = 0 ∨ limit (missing plaintext) := by
  have hsource : ∀ fill n bytes, random fill n = some bytes → bytes = (fill n).bytes := by
    intro fill n bytes hbytes
    rw [h] at hbytes
    split_ifs at hbytes
    exact (Option.some.inj hbytes).symm
  have hsome : ∀ fill, (random fill (missing plaintext)).isSome ↔ limit (missing plaintext) := by
    intro fill
    rw [h]
    split_ifs with hlimit <;> simp [hlimit]
  simp only [padWith_eq (hsource _), hsome]
  constructor
  · intro hpads
    obtain ⟨padded, hpadded, -⟩ := hpads fun n => ⟨List.replicate n 0, List.length_replicate ..⟩
    by_contra hnot
    rw [if_neg hnot] at hpadded
    cases hpadded
  · intro hlimit fill
    exact ⟨_, if_pos hlimit, padded_layout hlen fill⟩

theorem hubEventCrypto_padded_iff (hlen : plaintext.length < 2 ^ 32) (quota : Option Nat) :
    (∀ fill, ∃ padded, HubEventCrypto.padToBucket quota fill plaintext = some padded ∧
      Padded plaintext padded) ↔
      missing plaintext = 0 ∨ quota.all (missing plaintext ≤ ·) = true :=
  padWith_padded_iff hlen (getRandomValues quota) (fun n => quota.all (n ≤ ·) = true)
    fun _ _ => rfl

theorem wsEvents_padded_iff (hlen : plaintext.length < 2 ^ 32) :
    (∀ fill, ∃ padded, WsEvents.padToBucket fill plaintext = some padded ∧
      Padded plaintext padded) ↔
      missing plaintext = 0 ∨ missing plaintext ≤ MAX_INPUT_SIZE := by
  refine padWith_padded_iff hlen randomBytes (fun n => n ≤ MAX_INPUT_SIZE) fun fill n => ?_
  unfold randomBytes
  split_ifs with hn hn'
  · omega
  · rfl
  · rfl
  · omega

/-- **All encoders and decoders agree on a plaintext exactly if** its padding is within the limits of
the random sources: the quota of `getRandomValues`, and 100 MiB. -/
theorem padding_sound_iff (quota : Option Nat) (h : plaintext.length < 2 ^ 32 - 4) :
    Sound quota plaintext ↔ ∀ bucket, IsBucket plaintext.length bucket →
      (∀ q ∈ quota, bucket ≤ 4 + plaintext.length + q) ∧
        bucket ≤ 4 + plaintext.length + MAX_INPUT_SIZE := by
  have hlen : plaintext.length < 2 ^ 32 := by omega
  have hmissing := missing_add plaintext
  simp only [isBucket_iff, forall_eq, ← hmissing]
  constructor
  · intro hs
    have hquota := (hubEventCrypto_padded_iff hlen quota).mp hs.hubEventCrypto
    have hlimit := (wsEvents_padded_iff hlen).mp hs.wsEvents
    refine ⟨fun q hq => ?_, by omega⟩
    obtain rfl : quota = some q := hq
    simp only [Option.all_some, decide_eq_true_eq] at hquota
    omega
  · rintro ⟨hquota, hlimit⟩
    refine ⟨fun fill => ⟨_, padToBucket_core fill plaintext, padded_layout hlen fill⟩,
      (hubEventCrypto_padded_iff hlen quota).mpr ?_,
      (wsEvents_padded_iff hlen).mpr (.inr (by omega)), decodes⟩
    cases quota with
    | none => exact .inr rfl
    | some q =>
      have hwithin := hquota q rfl
      simp only [Option.all_some, decide_eq_true_eq]
      omega

/-- The bucket above 512. -/
theorem isBucket_pow {length k : Nat} (hk : 9 ≤ k) (hlt : 2 ^ k < 4 + length)
    (hle : 4 + length ≤ 2 ^ (k + 1)) : IsBucket length (2 ^ (k + 1)) := by
  have hmin : 2 ^ 9 ≤ 2 ^ (k + 1) := Nat.pow_le_pow_right (by decide) (by omega)
  refine ⟨⟨⟨k + 1, rfl⟩, max_le hmin hle⟩, ?_⟩
  rintro b ⟨⟨j, rfl⟩, hb⟩
  have hj : 2 ^ k < 2 ^ j := lt_of_lt_of_le hlt (le_trans (le_max_right _ _) hb)
  exact Nat.pow_le_pow_right (by omega) ((Nat.pow_lt_pow_iff_right (by omega)).mp hj)

theorem thousandBytes_sound : Sound (some 65536) (List.replicate 1000 0) := by
  have hlength : (List.replicate 1000 (0 : UInt8)).length = 1000 := List.length_replicate ..
  refine (padding_sound_iff (some 65536) (by rw [hlength]; decide)).mpr fun bucket hbucket => ?_
  rw [hlength] at hbucket ⊢
  obtain rfl := hbucket.unique (isBucket_pow (k := 9) (by decide) (by decide) (by decide))
  exact ⟨fun q hq => by cases hq; decide, by decide⟩

theorem hubEvent_throws (hlength : plaintext.length = 131069) : ¬ Sound (some 65536) plaintext := by
  intro hs
  have hbucket : IsBucket plaintext.length (2 ^ 18) := by
    rw [hlength]
    exact isBucket_pow (by decide) (by decide) (by decide)
  have hmissing := missing_add plaintext
  rw [← isBucket_iff.mp hbucket, hlength] at hmissing
  have hlimit := (hubEventCrypto_padded_iff (by rw [hlength]; decide) _).mp hs.hubEventCrypto
  simp only [Option.all_some, decide_eq_true_eq] at hlimit
  omega

theorem serverEvent_throws (hlength : plaintext.length = 2 ^ 27) : ¬ Sound none plaintext := by
  intro hs
  have hbucket : IsBucket plaintext.length (2 ^ 28) := by
    rw [hlength]
    exact isBucket_pow (by decide) (by decide) (by decide)
  have hmissing := missing_add plaintext
  rw [← isBucket_iff.mp hbucket, hlength] at hmissing
  have hlimit := (wsEvents_padded_iff (by rw [hlength]; decide)).mp hs.wsEvents
  rw [MAX_INPUT_SIZE] at hlimit
  omega

/-- With the quota of Web Crypto no hub event of 131069 bytes is padded, and no event of the server
of 128 MiB with any quota. -/
theorem longPadding_throws :
    ¬ Sound (some 65536) (List.replicate 131069 0) ∧ ¬ Sound none (List.replicate (2 ^ 27) 0) :=
  ⟨hubEvent_throws List.length_replicate, serverEvent_throws List.length_replicate⟩

end Llamenos.Worker.Padding

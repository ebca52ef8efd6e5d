import Llamenos.Crypto.Primitives
import Mathlib.Data.List.Infix
import Mathlib.Data.Nat.Log

/-!
# SFrame headers, nonces and frames

Model of the frame half of `packages/crypto/src/sframe.rs`: `varint_len` to `parse_header`
(117-201), `derive_base_nonce` and `compute_nonce` (211-229), `sframe_encrypt` and
`sframe_decrypt` (251-375). The profile says what `8 - len` does for `len > 8`.

A header is one config byte, alone (`X = 0`) or followed by a key id and a counter whose lengths
the config byte gives (`X = 1`).

Results:
* `parseHeader_headerBytes`: parsing undoes encoding, whatever follows the header.
* `header_roundtrip`: so headers are prefix-free, and nonces of one key tell counters apart.
* `parseHeader_returns_iff`, `decrypt_returns_iff`: the parser panics on exactly the complete
  headers that announce a counter of more than eight bytes (`OversizedCounter`), and decryption
  under a 32-byte key with it.
-/

namespace Llamenos.Crypto.Sframe

open Llamenos.Lib Llamenos.Lib.Outcome

/-! ## The code -/

/-- `u64::leading_zeros`. -/
def leadingZeros (val : UInt64) : Nat := if val = 0 then 64 else 63 - val.toNat.log2

/-- `varint_len`. -/
def varintLen (val : UInt64) : Nat :=
  if val = 0 then 1
  else
    let bits := 64 - leadingZeros val
    (bits + 7) / 8

/-- `write_be`: the bytes that are appended to the buffer. -/
def writeBe (p : Profile) (buf : Bytes) (val : UInt64) (len : Nat) : Call Bytes := do
  let start ← p.usizeSub 8 len
  let tail ← slice (toBeBytes val) start 8
  pure (buf ++ tail)

/-- `dst[start..].copy_from_slice(src)`. -/
def copyTail (dst : Bytes) (start : Nat) (src : Bytes) : Call Bytes := do
  let tail ← slice dst start dst.length
  if tail.length = src.length then .ok (dst.take start ++ src) else .panic .bounds

/-- `read_be`. -/
def readBe (p : Profile) (data : Bytes) (len : Nat) : Call UInt64 := do
  let start ← p.usizeSub 8 len
  let src ← slice data 0 len
  let buf ← copyTail (List.replicate 8 0) start src
  pure (fromBeBytes buf)

/-- The config byte of a long header. The lengths are at most 8, so the casts keep them. -/
def longConfig (kLen cLen : Nat) : UInt8 :=
  (0x80 : UInt8) ||| (UInt8.ofNat (kLen - 1) <<< 4) ||| UInt8.ofNat (cLen - 1)

/-- `encode_header`. -/
def encodeHeader (p : Profile) (keyId counter : UInt64) : Call Bytes :=
  if keyId ≤ 7 ∧ counter ≤ 15 then .ok [(keyId.toUInt8 <<< 4) ||| counter.toUInt8]
  else do
    let kLen := varintLen keyId
    let cLen := varintLen counter
    let header ← writeBe p [longConfig kLen cLen] keyId kLen
    writeBe p header counter cLen

/-- `SframeHeader`. -/
structure SframeHeader where
  keyId : UInt64
  counter : UInt64
  headerLen : Nat
  deriving DecidableEq

/-- `k_len` of a long header. -/
def configKLen (config : UInt8) : Nat := (((config >>> 4) &&& 0x07) + 1).toNat

/-- `c_len` of a long header. -/
def configCLen (config : UInt8) : Nat := ((config &&& 0x0F) + 1).toNat

/-- `parse_header`. -/
def parseHeader (p : Profile) (data : Bytes) : Call SframeHeader :=
  if data.isEmpty then .err .invalidCiphertext
  else do
    let config ← index data 0
    if config &&& 0x80 = 0 then
      let keyId := ((config >>> 4) &&& 0x07).toUInt64
      let counter := (config &&& 0x0F).toUInt64
      .ok { keyId, counter, headerLen := 1 }
    else
      let kLen := configKLen config
      let cLen := configCLen config
      let total := 1 + kLen + cLen
      if data.length < total then .err .invalidCiphertext
      else do
        let keyBytes ← slice data 1 (1 + kLen)
        let keyId ← readBe p keyBytes kLen
        let counterBytes ← slice data (1 + kLen) (1 + kLen + cLen)
        let counter ← readBe p counterBytes cLen
        .ok { keyId, counter, headerLen := total }

/-- `derive_base_nonce`. -/
def deriveBaseNonce (hkdf : Hkdf) (sendKey : U8Array 32) : Call (U8Array 12) :=
  hkdf.expandInto sendKey.bytes (asBytes "llamenos:sframe-nonce:v1") 12

/-- `compute_nonce`: the counter goes into the last 8 of the 12 bytes. -/
def computeNonce (baseNonce : U8Array 12) (counter : UInt64) : Call Bytes :=
  (List.range 8).foldlM (fun nonce i => do
    let b ← index nonce (12 - 8 + i)
    let c ← index (toBeBytes counter) i
    store nonce (12 - 8 + i) (b ^^^ c)) baseNonce.bytes

/-- The nonce that both directions use for a frame. -/
def frameNonce (hkdf : Hkdf) (sendKey : Bytes) (counter : UInt64) : Call (U8Array 12) := do
  let key ← U8Array.fromSlice 32 sendKey
  let baseNonce ← deriveBaseNonce hkdf key
  let nonceBytes ← computeNonce baseNonce counter
  U8Array.fromSlice 12 nonceBytes

/-- `sframe_encrypt`. -/
def sframeEncrypt (p : Profile) (hkdf : Hkdf) (aead : Aes256Gcm) (sendKey : Bytes)
    (keyId counter : UInt64) (plaintext : Bytes) : Call Bytes :=
  if sendKey.length ≠ 32 then .err (.invalidInput "send_key must be 32 bytes")
  else do
    let header ← encodeHeader p keyId counter
    let nonce ← frameNonce hkdf sendKey counter
    let cipher ← mapErr .encryptionFailed (aes256GcmNew sendKey)
    let ciphertextAndTag ← mapErr .encryptionFailed (aead.encrypt cipher nonce plaintext header)
    pure (header ++ ciphertextAndTag)

/-- The common body of `sframe_decrypt` and `sframe_decrypt_with_metadata`. -/
def sframeOpen (p : Profile) (hkdf : Hkdf) (aead : Aes256Gcm) (sendKey ciphertext : Bytes) :
    Call (Bytes × SframeHeader) :=
  if sendKey.length ≠ 32 then .err (.invalidInput "send_key must be 32 bytes")
  else do
    let headerInfo ← parseHeader p ciphertext
    let headerBytes ← slice ciphertext 0 headerInfo.headerLen
    let encryptedData ← slice ciphertext headerInfo.headerLen ciphertext.length
    if encryptedData.length < 16 then .err .invalidCiphertext
    else do
      let nonce ← frameNonce hkdf sendKey headerInfo.counter
      let cipher ← mapErr .encryptionFailed (aes256GcmNew sendKey)
      match aead.decrypt cipher nonce encryptedData headerBytes with
      | some plaintext => .ok (plaintext, headerInfo)
      | none => .err .decryptionFailed

/-- `sframe_decrypt`. -/
def sframeDecrypt (p : Profile) (hkdf : Hkdf) (aead : Aes256Gcm) (sendKey ciphertext : Bytes) :
    Call Bytes := do
  let opened ← sframeOpen p hkdf aead sendKey ciphertext
  pure opened.1

/-- `sframe_decrypt_with_metadata`. -/
def sframeDecryptWithMetadata (p : Profile) (hkdf : Hkdf) (aead : Aes256Gcm)
    (sendKey ciphertext : Bytes) : Call (Bytes × UInt64 × UInt64) := do
  let opened ← sframeOpen p hkdf aead sendKey ciphertext
  pure (opened.1, opened.2.keyId, opened.2.counter)

/-! ## Reading and writing integers -/

variable {p : Profile}

theorem varintLen_zero : varintLen 0 = 1 := rfl

theorem varintLen_of_ne_zero {val : UInt64} (h : val ≠ 0) :
    varintLen val = (val.toNat.log2 + 8) / 8 := by
  have hlog : val.toNat.log2 < 64 :=
    (Nat.log2_lt (fun h0 => h (UInt64.toNat_inj.mp h0))).mpr val.toNat_lt
  unfold varintLen leadingZeros
  rw [if_neg h, if_neg h]
  show (64 - (63 - val.toNat.log2) + 7) / 8 = _
  omega

theorem varintLen_bounds (val : UInt64) : 1 ≤ varintLen val ∧ varintLen val ≤ 8 := by
  by_cases h : val = 0
  · rw [h, varintLen_zero]
    decide
  · have hlog : val.toNat.log2 < 64 :=
      (Nat.log2_lt (fun h0 => h (UInt64.toNat_inj.mp h0))).mpr val.toNat_lt
    rw [varintLen_of_ne_zero h]
    omega

/-- The bytes that `varint_len` asks for hold the number. -/
theorem lt_pow_varintLen (val : UInt64) : val.toNat < 256 ^ varintLen val := by
  by_cases h : val = 0
  · rw [h]
    decide
  · rw [varintLen_of_ne_zero h]
    calc val.toNat < 2 ^ (val.toNat.log2 + 1) := Nat.lt_log2_self
      _ ≤ 2 ^ (8 * ((val.toNat.log2 + 8) / 8)) := Nat.pow_le_pow_right (by decide) (by omega)
      _ = 256 ^ ((val.toNat.log2 + 8) / 8) := by rw [Nat.pow_mul]

theorem writeBe_ok {len : Nat} (h : len ≤ 8) (buf : Bytes) (val : UInt64) :
    writeBe p buf val len = .ok (buf ++ toBe len val.toNat) := by
  unfold writeBe
  rw [Profile.usizeSub_ok p h, ok_bind, slice_ok (by omega) (by simp), ok_bind,
    List.take_of_length_le (by simp), toBeBytes]
  conv_lhs => rw [show (8 : Nat) = (8 - len) + len by omega]
  rw [Nat.add_sub_cancel, drop_toBe]
  rfl

theorem readBe_ok {data : Bytes} {len : Nat} (h : len ≤ 8) (hd : len ≤ data.length) :
    readBe p data len = .ok (fromBeBytes (List.replicate (8 - len) 0 ++ data.take len)) := by
  unfold readBe copyTail
  rw [Profile.usizeSub_ok p h, ok_bind, slice_ok (Nat.zero_le _) hd, ok_bind,
    slice_ok (by simp) (Nat.le_refl _), ok_bind, if_pos]
  · rw [ok_bind, List.take_replicate, Nat.min_eq_left (Nat.sub_le 8 len), List.drop_zero]
    rfl
  · simp only [List.length_drop, List.length_take, List.length_replicate]
    omega

/-- More than eight bytes do not fit: `8 - len` overflows, or else slices out of bounds. -/
theorem readBe_panic (data : Bytes) {len : Nat} (h : 8 < len) (hlen : len ≤ 16) :
    ∃ q, readBe p data len = .panic q := by
  unfold readBe Profile.usizeSub Profile.overflow
  rw [if_neg (by omega)]
  by_cases hp : p.overflowChecks
  · exact ⟨.arithmetic, by rw [if_pos hp]; rfl⟩
  · refine ⟨.bounds, ?_⟩
    rw [if_neg hp, ok_bind]
    by_cases hd : len ≤ data.length
    · rw [slice_ok (Nat.zero_le _) hd, ok_bind, copyTail, slice_panic (by simp; omega)]
      rfl
    · rw [slice_panic (fun hs => hd hs.2)]
      rfl

/-! ## The config byte -/

theorem configLen_bounds (config : UInt8) : configKLen config ≤ 8 ∧ configCLen config ≤ 16 := by
  have hk : (config >>> 4).toNat &&& 7 ≤ 7 := Nat.and_le_right
  have hc : config.toNat &&& 15 ≤ 15 := Nat.and_le_right
  unfold configKLen configCLen
  rw [UInt8.toNat_add, UInt8.toNat_add, UInt8.toNat_and, UInt8.toNat_and]
  exact ⟨(Nat.mod_le _ _).trans (Nat.succ_le_succ hk),
    (Nat.mod_le _ _).trans (Nat.succ_le_succ hc)⟩

/-- The byte of a short header shows its two fields. -/
theorem short_config : ∀ (i : Fin 8) (j : Fin 16),
    (((UInt64.ofNat i).toUInt8 <<< 4) ||| (UInt64.ofNat j).toUInt8) &&& 0x80 = 0 ∧
    (((((UInt64.ofNat i).toUInt8 <<< 4) ||| (UInt64.ofNat j).toUInt8) >>> 4) &&&
      0x07).toUInt64 = UInt64.ofNat i ∧
    ((((UInt64.ofNat i).toUInt8 <<< 4) ||| (UInt64.ofNat j).toUInt8) &&& 0x0F).toUInt64 =
      UInt64.ofNat j := by
  decide

/-- The config byte of a long header shows the two lengths. -/
theorem long_config : ∀ i j : Fin 8, longConfig (i + 1) (j + 1) &&& 0x80 ≠ 0 ∧
    configKLen (longConfig (i + 1) (j + 1)) = i + 1 ∧
    configCLen (longConfig (i + 1) (j + 1)) = j + 1 := by
  decide

theorem longConfig_spec {kLen cLen : Nat} (hk : 1 ≤ kLen ∧ kLen ≤ 8) (hc : 1 ≤ cLen ∧ cLen ≤ 8) :
    longConfig kLen cLen &&& 0x80 ≠ 0 ∧ configKLen (longConfig kLen cLen) = kLen ∧
      configCLen (longConfig kLen cLen) = cLen := by
  have h := long_config ⟨kLen - 1, by omega⟩ ⟨cLen - 1, by omega⟩
  rwa [show kLen - 1 + 1 = kLen by omega, show cLen - 1 + 1 = cLen by omega] at h

/-! ## The header -/

theorem parseHeader_short {config : UInt8} (h : config &&& 0x80 = 0) (rest : Bytes) :
    parseHeader p (config :: rest) =
      .ok ⟨((config >>> 4) &&& 0x07).toUInt64, (config &&& 0x0F).toUInt64, 1⟩ := by
  unfold parseHeader
  rw [List.isEmpty_cons, if_neg (by decide), index_ok (by simp), ok_bind]
  exact if_pos h

/-- What the parser does after the config byte of a long header. -/
theorem parseHeader_long {config : UInt8} (h : config &&& 0x80 ≠ 0) (rest : Bytes) :
    parseHeader p (config :: rest) =
      if rest.length < configKLen config + configCLen config then .err .invalidCiphertext
      else (do
        let keyId ← readBe p (rest.take (configKLen config)) (configKLen config)
        let counter ← readBe p ((rest.drop (configKLen config)).take (configCLen config))
          (configCLen config)
        .ok ⟨keyId, counter, 1 + configKLen config + configCLen config⟩) := by
  unfold parseHeader
  rw [List.isEmpty_cons, if_neg (by decide), index_ok (by simp), ok_bind]
  simp only [List.getElem_cons_zero, if_neg h, List.length_cons]
  by_cases hlen : rest.length < configKLen config + configCLen config
  · rw [if_pos hlen, if_pos (by omega)]
  · rw [if_neg hlen, if_neg (by omega), slice_ok (by omega) (by simp; omega), ok_bind,
      slice_ok (by omega) (by simp; omega)]
    congr 1
    · rw [Nat.add_comm 1, List.take_succ_cons, List.drop_succ_cons, List.drop_zero]
    · funext keyId
      have htotal : 1 + configKLen config + configCLen config =
          configKLen config + configCLen config + 1 := by omega
      rw [ok_bind, htotal, Nat.add_comm 1, List.take_succ_cons, List.drop_succ_cons,
        List.drop_take, Nat.add_sub_cancel_left]

/-- The bytes of a header. -/
def headerBytes (keyId counter : UInt64) : Bytes :=
  if keyId ≤ 7 ∧ counter ≤ 15 then [(keyId.toUInt8 <<< 4) ||| counter.toUInt8]
  else longConfig (varintLen keyId) (varintLen counter) ::
    (toBe (varintLen keyId) keyId.toNat ++ toBe (varintLen counter) counter.toNat)

theorem encodeHeader_ok (keyId counter : UInt64) :
    encodeHeader p keyId counter = .ok (headerBytes keyId counter) := by
  unfold encodeHeader headerBytes
  by_cases h : keyId ≤ 7 ∧ counter ≤ 15
  · rw [if_pos h, if_pos h]
  · rw [if_neg h, if_neg h]
    simp only [writeBe_ok (varintLen_bounds keyId).2, writeBe_ok (varintLen_bounds counter).2,
      ok_bind, List.cons_append, List.nil_append]

/-- **Parsing undoes encoding, whatever follows the header.** -/
theorem parseHeader_headerBytes (keyId counter : UInt64) (rest : Bytes) :
    parseHeader p (headerBytes keyId counter ++ rest) =
      .ok ⟨keyId, counter, (headerBytes keyId counter).length⟩ := by
  unfold headerBytes
  by_cases h : keyId ≤ 7 ∧ counter ≤ 15
  · have hk : keyId.toNat < 8 := Nat.lt_succ_of_le (UInt64.le_iff_toNat_le.mp h.1)
    have hc : counter.toNat < 16 := Nat.lt_succ_of_le (UInt64.le_iff_toNat_le.mp h.2)
    obtain ⟨hx, hkey, hctr⟩ := short_config ⟨keyId.toNat, hk⟩ ⟨counter.toNat, hc⟩
    simp only [UInt64.ofNat_toNat] at hx hkey hctr
    rw [if_pos h, List.singleton_append, parseHeader_short hx, hkey, hctr]
    rfl
  · obtain ⟨hx, hk, hc⟩ := longConfig_spec (varintLen_bounds keyId) (varintLen_bounds counter)
    rw [if_neg h, List.cons_append, parseHeader_long hx, hk, hc, if_neg (by simp)]
    have hkey : ((toBe (varintLen keyId) keyId.toNat ++ toBe (varintLen counter) counter.toNat) ++
        rest).take (varintLen keyId) = toBe (varintLen keyId) keyId.toNat := by
      rw [List.append_assoc, List.take_left' (length_toBe _ _)]
    have hctr : (((toBe (varintLen keyId) keyId.toNat ++
        toBe (varintLen counter) counter.toNat) ++ rest).drop (varintLen keyId)).take
        (varintLen counter) = toBe (varintLen counter) counter.toNat := by
      rw [List.append_assoc, List.drop_left' (length_toBe _ _), List.take_left' (length_toBe _ _)]
    rw [hkey, hctr, readBe_ok (varintLen_bounds keyId).2 (by simp), ok_bind,
      readBe_ok (varintLen_bounds counter).2 (by simp), ok_bind,
      List.take_of_length_le (by simp), List.take_of_length_le (by simp),
      fromBeBytes_replicate_zero_toBe (lt_pow_varintLen keyId),
      fromBeBytes_replicate_zero_toBe (lt_pow_varintLen counter)]
    simp only [List.length_cons, List.length_append, length_toBe]
    congr 2
    omega

theorem headerBytes_prefix {keyId counter keyId' counter' : UInt64} :
    headerBytes keyId counter <+: headerBytes keyId' counter' ↔
      keyId = keyId' ∧ counter = counter' := by
  constructor
  · rintro ⟨rest, h⟩
    have hparse := parseHeader_headerBytes (p := ⟨true⟩) keyId counter rest
    have hparse' := parseHeader_headerBytes (p := ⟨true⟩) keyId' counter' []
    rw [h, ← List.append_nil (headerBytes keyId' counter'), hparse'] at hparse
    injection hparse with hheader
    injection hheader with hk hc
    exact ⟨hk.symm, hc.symm⟩
  · rintro ⟨rfl, rfl⟩
    exact List.prefix_rfl

/-! ## The nonce -/

theorem computeNonce_ok (baseNonce : U8Array 12) (counter : UInt64) :
    computeNonce baseNonce counter = .ok (baseNonce.bytes.take 4 ++
      List.zipWith (· ^^^ ·) (baseNonce.bytes.drop 4) (toBeBytes counter)) := by
  have hlen := baseNonce.length_eq
  have htake : (baseNonce.bytes.take 4).length = 4 := by simp [hlen]
  have hdrop : (baseNonce.bytes.drop 4).length = 8 := by simp [hlen]
  have h := zipInto_ok (ε := CryptoError) (· ^^^ ·) (baseNonce.bytes.take 4)
    (baseNonce.bytes.drop 4) (toBeBytes counter) (by simp [hlen])
  rwa [List.take_append_drop, htake, hdrop] at h

theorem zipWith_xor_inj {xs ys zs : Bytes} (hy : ys.length = xs.length)
    (hz : zs.length = xs.length)
    (h : List.zipWith (· ^^^ ·) xs ys = List.zipWith (· ^^^ ·) xs zs) : ys = zs := by
  refine List.ext_getElem (by omega) fun i hi hi' => ?_
  have hget := congrArg (fun l => l[i]?) h
  simp only [List.getElem?_zipWith, List.getElem?_eq_getElem hi, List.getElem?_eq_getElem hi',
    List.getElem?_eq_getElem (show i < xs.length by omega), Option.some.injEq] at hget
  exact UInt8.xor_right_inj _ |>.mp hget

/-- **Under one base nonce, distinct counters give distinct nonces.** -/
theorem computeNonce_injective (baseNonce : U8Array 12) :
    Function.Injective (computeNonce baseNonce) := by
  intro counter counter' h
  have hlen := baseNonce.length_eq
  rw [computeNonce_ok, computeNonce_ok] at h
  injection h with h
  have hbytes := zipWith_xor_inj (by simp [hlen]) (by simp [hlen]) (List.append_cancel_left h)
  exact toBeBytes_inj.mp hbytes

/-- **Headers round-trip and are prefix-free, and nonces tell counters apart.** -/
theorem header_roundtrip (p : Profile) :
    ∃ header : UInt64 → UInt64 → Bytes,
      (∀ keyId counter, encodeHeader p keyId counter = .ok (header keyId counter)) ∧
      (∀ keyId counter rest, parseHeader p (header keyId counter ++ rest) =
        .ok ⟨keyId, counter, (header keyId counter).length⟩) ∧
      (∀ keyId counter keyId' counter', header keyId counter <+: header keyId' counter' ↔
        keyId = keyId' ∧ counter = counter') ∧
      (∀ keyId counter keyId' counter', header keyId counter = header keyId' counter' ↔
        keyId = keyId' ∧ counter = counter') ∧
      (∀ baseNonce counter, ∃ nonce, computeNonce baseNonce counter = .ok nonce) ∧
      ∀ baseNonce, Function.Injective (computeNonce baseNonce) := by
  refine ⟨headerBytes, encodeHeader_ok, parseHeader_headerBytes, fun _ _ _ _ => headerBytes_prefix,
    ?_, fun _ _ => ⟨_, computeNonce_ok _ _⟩, computeNonce_injective⟩
  intro keyId counter keyId' counter'
  constructor
  · intro h
    exact headerBytes_prefix.mp (h ▸ List.prefix_rfl)
  · rintro ⟨rfl, rfl⟩
    rfl

/-! ## Panics -/

/-- A complete long header that announces a counter of more than eight bytes. -/
def OversizedCounter : Bytes → Prop
  | [] => False
  | config :: rest => config &&& 0x80 ≠ 0 ∧ 8 < configCLen config ∧
      configKLen config + configCLen config ≤ rest.length

instance : DecidablePred OversizedCounter
  | [] => isFalse id
  | config :: rest => inferInstanceAs (Decidable (config &&& 0x80 ≠ 0 ∧ 8 < configCLen config ∧
      configKLen config + configCLen config ≤ rest.length))

theorem parseHeader_panic {frame : Bytes} (h : OversizedCounter frame) :
    ∃ q, parseHeader p frame = .panic q := by
  cases frame with
  | nil => exact absurd h id
  | cons config rest =>
    obtain ⟨hx, hc, hlen⟩ := h
    obtain ⟨hk8, hc16⟩ := configLen_bounds config
    obtain ⟨q, hq⟩ := readBe_panic (p := p)
      ((rest.drop (configKLen config)).take (configCLen config)) hc hc16
    refine ⟨q, ?_⟩
    rw [parseHeader_long hx, if_neg (by omega), readBe_ok hk8 (by simp; omega), ok_bind, hq]
    rfl

/-- What the parser returns where it does not panic: a header no longer than the frame, or
`InvalidCiphertext`. -/
theorem parseHeader_cases {frame : Bytes} (h : ¬ OversizedCounter frame) :
    (∃ header, parseHeader p frame = .ok header ∧ header.headerLen ≤ frame.length) ∨
      parseHeader p frame = .err .invalidCiphertext := by
  cases frame with
  | nil => exact .inr rfl
  | cons config rest =>
    by_cases hx : config &&& 0x80 = 0
    · exact .inl ⟨_, parseHeader_short hx rest, by simp⟩
    · rw [parseHeader_long hx]
      split
      · exact .inr rfl
      · rename_i hlen
        have hc8 : configCLen config ≤ 8 := by
          by_contra hc
          exact h ⟨hx, by omega, by omega⟩
        rw [readBe_ok (configLen_bounds config).1 (by simp; omega), ok_bind,
          readBe_ok hc8 (by simp; omega), ok_bind]
        exact .inl ⟨_, rfl, by simp; omega⟩

theorem parseHeader_returns_iff (p : Profile) (frame : Bytes) :
    (parseHeader p frame).Returns ↔ ¬ OversizedCounter frame := by
  constructor
  · intro hr h
    obtain ⟨q, hq⟩ := parseHeader_panic (p := p) h
    exact hr q hq
  · intro h
    obtain ⟨header, hp, -⟩ | hp := parseHeader_cases (p := p) h
    · exact hp ▸ returns_ok header
    · exact hp ▸ returns_err _

theorem frameNonce_ok (hkdf : Hkdf) {sendKey : Bytes} (h : sendKey.length = 32)
    (counter : UInt64) : ∃ nonce, frameNonce hkdf sendKey counter = .ok nonce := by
  obtain ⟨baseNonce, hbase⟩ := hkdf.expandInto_ok sendKey (asBytes "llamenos:sframe-nonce:v1")
    (show 12 ≤ 255 * 32 by decide)
  have hlen := baseNonce.length_eq
  unfold frameNonce deriveBaseNonce
  rw [U8Array.fromSlice_ok h, ok_bind, hbase, ok_bind, computeNonce_ok, ok_bind]
  exact ⟨_, U8Array.fromSlice_ok (by simp [hlen])⟩

theorem sframeOpen_returns_iff (hkdf : Hkdf) (aead : Aes256Gcm) (sendKey frame : Bytes) :
    (sframeOpen p hkdf aead sendKey frame).Returns ↔
      sendKey.length ≠ 32 ∨ ¬ OversizedCounter frame := by
  unfold sframeOpen
  by_cases hkey : sendKey.length = 32
  · rw [if_neg (not_not_intro hkey)]
    constructor
    · intro hr
      refine .inr fun h => ?_
      obtain ⟨q, hq⟩ := parseHeader_panic (p := p) h
      rw [hq] at hr
      exact hr q rfl
    · rintro (h | h)
      · exact absurd hkey h
      · obtain ⟨header, hp, hlen⟩ | hp := parseHeader_cases (p := p) h
        · obtain ⟨nonce, hn⟩ := frameNonce_ok hkdf hkey header.counter
          rw [hp, ok_bind, slice_ok (Nat.zero_le _) hlen, ok_bind, slice_ok hlen (Nat.le_refl _),
            ok_bind]
          split
          · exact returns_err _
          · rw [hn, ok_bind, aes256GcmNew_ok hkey, mapErr_ok, ok_bind]
            split
            · exact returns_ok _
            · exact returns_err _
        · rw [hp]
          exact returns_err _
  · rw [if_pos hkey]
    exact ⟨fun _ => .inl hkey, fun _ => returns_err _⟩

/-- **`parse_header` and `sframe_decrypt` come back exactly when the frame is not a complete
header with an oversized counter** (decryption also under a key it refuses). -/
theorem decrypt_returns_iff (p : Profile) (hkdf : Hkdf) (aead : Aes256Gcm)
    (sendKey frame : Bytes) :
    ((parseHeader p frame).Returns ∧ (sframeDecrypt p hkdf aead sendKey frame).Returns ↔
      ¬ OversizedCounter frame) ∧
    ((sframeDecrypt p hkdf aead sendKey frame).Returns ↔
      sendKey.length ≠ 32 ∨ ¬ OversizedCounter frame) := by
  have hdecrypt : (sframeDecrypt p hkdf aead sendKey frame).Returns ↔
      sendKey.length ≠ 32 ∨ ¬ OversizedCounter frame :=
    bind_pure_returns.trans (sframeOpen_returns_iff hkdf aead sendKey frame)
  refine ⟨?_, hdecrypt⟩
  rw [parseHeader_returns_iff, hdecrypt]
  exact ⟨fun h => h.1, fun h => ⟨h, .inr h⟩⟩

/-- A frame of one config byte that announces nine counter bytes, and ten bytes after it. -/
def oversizedFrame : Bytes := 0x88 :: List.replicate 10 0

/-- Overflow checks only change how the parser panics. -/
theorem oversizedFrame_panics :
    parseHeader ⟨true⟩ oversizedFrame = .panic .arithmetic ∧
    parseHeader ⟨false⟩ oversizedFrame = .panic .bounds ∧
    ∀ p hkdf aead, ¬ (sframeDecrypt p hkdf aead (List.replicate 32 0) oversizedFrame).Returns := by
  refine ⟨by decide, by decide, fun p hkdf aead hr => ?_⟩
  have hover : OversizedCounter oversizedFrame := by decide
  obtain hkey | h := (sframeOpen_returns_iff hkdf aead _ _).mp (bind_pure_returns.mp hr)
  · exact hkey (List.length_replicate ..)
  · exact h hover

/-! ## Frames -/

/-- **Decryption undoes encryption**, and shows the key id and the counter. -/
theorem decrypt_encrypt {hkdf : Hkdf} {aead : Aes256Gcm} (hround : aead.RoundTrips)
    (htag : ∀ key nonce msg aad ciphertext, aead.encrypt key nonce msg aad = .ok ciphertext →
      ciphertext.length = msg.length + 16) {sendKey plaintext frame : Bytes}
    {keyId counter : UInt64}
    (h : sframeEncrypt p hkdf aead sendKey keyId counter plaintext = .ok frame) :
    sframeDecryptWithMetadata p hkdf aead sendKey frame = .ok (plaintext, keyId, counter) := by
  unfold sframeEncrypt at h
  by_cases hkey : sendKey.length = 32
  · obtain ⟨nonce, hn⟩ := frameNonce_ok hkdf hkey counter
    rw [if_neg (not_not_intro hkey), encodeHeader_ok, ok_bind, hn, ok_bind, aes256GcmNew_ok hkey,
      mapErr_ok, ok_bind, bind_eq_ok] at h
    obtain ⟨sealed, hseal, hframe⟩ := h
    rw [mapErr_eq_ok] at hseal
    obtain rfl : headerBytes keyId counter ++ sealed = frame := by simpa using hframe
    have hopen : sframeOpen p hkdf aead sendKey (headerBytes keyId counter ++ sealed) =
        .ok (plaintext, ⟨keyId, counter, (headerBytes keyId counter).length⟩) := by
      have hlen : ¬ sealed.length < 16 := by
        rw [htag _ _ _ _ _ hseal]
        omega
      unfold sframeOpen
      rw [if_neg (not_not_intro hkey), parseHeader_headerBytes, ok_bind,
        slice_ok (Nat.zero_le _) (by simp), ok_bind, slice_ok (by simp) (Nat.le_refl _), ok_bind]
      simp only [List.take_left, List.drop_zero, List.take_length, List.drop_left]
      rw [if_neg hlen, hn, ok_bind, aes256GcmNew_ok hkey, mapErr_ok, ok_bind,
        hround _ _ _ _ _ hseal]
    rw [sframeDecryptWithMetadata, hopen]
    rfl
  · rw [if_pos hkey] at h
    cases h

/-- A key of zeros, with HKDF and AES-GCM as far as one frame goes. -/
def zeroKey : U8Array 32 := U8Array.ofHex 32 ""

def frameHkdf : Hkdf where
  expand _ _ len := some (U8Array.ofHex len "1b1dece5bf130457e862b127")
  expand_isSome _ _ _ _ := rfl

def frameAead : Aes256Gcm :=
  .single zeroKey (U8Array.ofHex 12 "1b1dece5bf130457e862b00b") (asBytes "hola")
    (U8Array.ofHex 4 "8109012c").bytes
    (U8Array.ofHex 20 "5b395f476d6efb3bf8a22615e1fd1a454e684134").bytes

theorem decrypt_encrypt_hola : ∃ frame,
    sframeEncrypt ⟨true⟩ frameHkdf frameAead zeroKey.bytes 9 300 (asBytes "hola") = .ok frame ∧
      sframeDecryptWithMetadata ⟨true⟩ frameHkdf frameAead zeroKey.bytes frame =
        .ok (asBytes "hola", 9, 300) := by
  have htag : ∀ key nonce msg aad ciphertext,
      frameAead.encrypt key nonce msg aad = .ok ciphertext →
        ciphertext.length = msg.length + 16 := by
    intro key nonce msg aad ciphertext h
    simp only [frameAead, Aes256Gcm.single, Prod.mk.injEq] at h
    split_ifs at h with hin
    obtain rfl := Except.ok.inj h
    rw [hin.2.2.1, U8Array.length_eq]
    rfl
  have hframe : sframeEncrypt ⟨true⟩ frameHkdf frameAead zeroKey.bytes 9 300 (asBytes "hola") =
      .ok (U8Array.ofHex 24 "8109012c5b395f476d6efb3bf8a22615e1fd1a454e684134").bytes := by
    decide +kernel
  exact ⟨_, hframe, decrypt_encrypt (Aes256Gcm.single_roundTrips _ _ _ _ _) htag hframe⟩

end Llamenos.Crypto.Sframe

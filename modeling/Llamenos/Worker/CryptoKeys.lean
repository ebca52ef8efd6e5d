import Llamenos.Crypto.Sigchain.History
import Llamenos.Worker.CanonicalJson
import Mathlib.Data.List.MinMax

/-!
# The server's sigchains

`appendSigchainLink` and `getSigchain` of `apps/worker/services/crypto-keys.ts`, on the table
`sigchain_links` of all users. The route admits non-negative integers as `seqNo`. What the
database adds to a row, and whether an insert fails, is an argument.

The server numbers a chain from 0, and the crypto core's verifier from 1. So, although what the
server stores is a hash chain of hashed and signed links, the verifier rejects all of it.

Results:
* `appendSigchainLink_ok`: what an accepted link satisfies, as a row.
* `appendAll_serverChain`: **accepted links form a hash chain**, numbered from 0, for every user.
* `storedChain_rejected`: the verifier rejects every stored chain.
* `sampleGenesis_rejected`: a chain of one accepted link.
-/

namespace Llamenos.Worker.CryptoKeys

open Llamenos.Lib Llamenos.Crypto

/-! ## The code -/

/-- The runtime, numbers made of integers, SHA-256, and Ed25519. -/
structure CryptoKeysPrims (N : Type) where
  js : Js N
  ofNat : Nat → N
  sha256 : Bytes → U8Array 32
  ed25519 : Ed25519

variable {N : Type}

/-- A row of `sigchain_links`. -/
structure SigchainRow (N : Type) where
  id : String
  userPubkey : String
  seqNo : Nat
  linkType : String
  payload : Json N
  signature : String
  prevHash : String
  hash : String
  signerDeviceId : String
  signerPubkey : String
  linkTimestamp : String
  createdAt : String

/-- The link that `appendSigchainLink` is given. -/
structure NewLink (N : Type) where
  seqNo : Nat
  linkType : String
  payload : Json N
  signature : String
  prevHash : String
  hash : String
  signerDeviceId : String
  signerPubkey : String
  timestamp : String

/-- What the database adds to a row, or that it fails. -/
structure Insert where
  id : String
  createdAt : String
  fails : Bool

/-- `CryptoKeyError`, or an error of the database. -/
inductive AppendError where
  | cryptoKey (message : String) (status : Nat)
  | database

/-- `where(eq(sigchainLinks.userPubkey, userPubkey))`. -/
def rowsOf (table : List (SigchainRow N)) (userPubkey : String) : List (SigchainRow N) :=
  table.filter (·.userPubkey = userPubkey)

/-- `orderBy(desc(sigchainLinks.seqNo)).limit(1)`. -/
def currentHead (rows : List (SigchainRow N)) : Option (SigchainRow N) := rows.argmax (·.seqNo)

def expectedSeqNo (head : Option (SigchainRow N)) : Nat := head.elim 0 (·.seqNo + 1)

def expectedPrevHash (head : Option (SigchainRow N)) : String := head.elim "" (·.hash)

/-- The entry hash that the server recomputes. -/
def recomputedHash (prims : CryptoKeysPrims N) (link : NewLink N) : String :=
  computeEntryHash prims.js prims.sha256 (prims.ofNat link.seqNo)
    (if link.prevHash = "" then none else some link.prevHash) link.timestamp link.signerDeviceId
    link.signerPubkey link.payload

/-- The `try` block: the signature of the entry hash, under the user's key. -/
def verifyLinkSignature (prims : CryptoKeysPrims N) (userPubkey : String) (link : NewLink N) :
    Option Bool := do
  let hashBytes ← hexToBytes link.hash
  let sigBytes ← hexToBytes link.signature
  let pubkeyBytes ← hexToBytes userPubkey
  ed25519Verify prims.ed25519 pubkeyBytes hashBytes sigBytes

/-- `appendSigchainLink`. The column `seq_no` holds 32 bits. -/
def appendSigchainLink (prims : CryptoKeysPrims N) (table : List (SigchainRow N))
    (userPubkey : String) (link : NewLink N) (insert : Insert) :
    Except AppendError (SigchainRow N) :=
  let head := currentHead (rowsOf table userPubkey)
  if link.seqNo ≠ expectedSeqNo head then
    .error (.cryptoKey
      s!"sigchain sequence mismatch: expected {expectedSeqNo head}, got {link.seqNo}" 409)
  else if link.prevHash ≠ expectedPrevHash head then
    .error (.cryptoKey "sigchain prevHash mismatch: does not match current chain head" 409)
  else if asBytes (recomputedHash prims link) ≠ toLowerCase link.hash then
    .error (.cryptoKey ("sigchain hash mismatch: recomputed hash does not match claimed hash — " ++
      "payload may have been tampered") 400)
  else
    match verifyLinkSignature prims userPubkey link with
    | none => .error (.cryptoKey "sigchain signature verification failed: invalid format" 400)
    | some false => .error (.cryptoKey "sigchain signature verification failed" 403)
    | some true =>
      if insert.fails || link.seqNo > 2147483647 then .error .database
      else .ok { id := insert.id, userPubkey, seqNo := link.seqNo, linkType := link.linkType,
                 payload := link.payload, signature := link.signature, prevHash := link.prevHash,
                 hash := link.hash, signerDeviceId := link.signerDeviceId,
                 signerPubkey := link.signerPubkey, linkTimestamp := link.timestamp,
                 createdAt := insert.createdAt }

/-- `orderBy(asc(sigchainLinks.seqNo))`, in `getSigchain`. -/
def storedChain (table : List (SigchainRow N)) (userPubkey : String) : List (SigchainRow N) :=
  (rowsOf table userPubkey).insertionSort fun a b => a.seqNo ≤ b.seqNo

/-! ## Runs -/

/-- A call of `appendSigchainLink`. -/
structure AppendCall (N : Type) where
  userPubkey : String
  link : NewLink N
  insert : Insert

/-- An accepted call leaves its row in the table. -/
def append (prims : CryptoKeysPrims N) (table : List (SigchainRow N)) (call : AppendCall N) :
    Except AppendError (List (SigchainRow N)) :=
  match appendSigchainLink prims table call.userPubkey call.link call.insert with
  | .ok row => .ok (table ++ [row])
  | .error e => .error e

/-- The table after calls that are all accepted. -/
def appendAll (prims : CryptoKeysPrims N) (table : List (SigchainRow N))
    (calls : List (AppendCall N)) : Except AppendError (List (SigchainRow N)) :=
  calls.foldlM (append prims) table

/-! ## What the server checks -/

/-- The link that a row stores. -/
def SigchainRow.link (row : SigchainRow N) : NewLink N where
  seqNo := row.seqNo
  linkType := row.linkType
  payload := row.payload
  signature := row.signature
  prevHash := row.prevHash
  hash := row.hash
  signerDeviceId := row.signerDeviceId
  signerPubkey := row.signerPubkey
  timestamp := row.linkTimestamp

/-- A row whose hash is that of its fields, and signed by the user. -/
structure Checked (prims : CryptoKeysPrims N) (row : SigchainRow N) : Prop where
  hash_eq : toLowerCase row.hash = asBytes (recomputedHash prims row.link)
  signed : verifyLinkSignature prims row.userPubkey row.link = some true

variable {prims : CryptoKeysPrims N} {row : SigchainRow N}

/-- **What an accepted link satisfies**, as a row. -/
theorem appendSigchainLink_ok {table : List (SigchainRow N)}
    {userPubkey : String} {link : NewLink N} {insert : Insert}
    (h : appendSigchainLink prims table userPubkey link insert = .ok row) :
    row.userPubkey = userPubkey ∧
      row.seqNo = expectedSeqNo (currentHead (rowsOf table userPubkey)) ∧
      row.prevHash = expectedPrevHash (currentHead (rowsOf table userPubkey)) ∧
      Checked prims row := by
  unfold appendSigchainLink at h
  dsimp only at h
  split at h
  · cases h
  rename_i hseq
  split at h
  · cases h
  rename_i hprev
  split at h
  · cases h
  rename_i hhash
  split at h
  · cases h
  · cases h
  rename_i hsigned
  split at h
  · cases h
  injection h with h
  subst h
  exact ⟨rfl, not_not.mp hseq, not_not.mp hprev, (not_not.mp hhash).symm, hsigned⟩

/-- A checked row has a hash. -/
theorem Checked.hash_ne (h : Checked prims row) :
    row.hash ≠ "" := by
  intro hempty
  have hlen := congrArg List.length h.hash_eq
  rw [hempty, recomputedHash, computeEntryHash, length_asBytes_hexEncode, U8Array.length_eq] at hlen
  cases hlen

/-! ## The stored chain -/

/-- The hash that a row records of the one before it. -/
def parent (row : SigchainRow N) : Option String :=
  if row.prevHash = "" then none else some row.prevHash

/-- A user's rows: numbered from 0, each one checked, and linked to the one before. -/
structure ServerChain (prims : CryptoKeysPrims N) (rows : List (SigchainRow N)) : Prop where
  seqNos : rows.map SigchainRow.seqNo = List.range rows.length
  linked : rows ≠ [] → HashChain.Linked parent SigchainRow.hash rows.reverse
  checked : ∀ row ∈ rows, Checked prims row

theorem serverChain_nil (prims : CryptoKeysPrims N) : ServerChain prims [] :=
  ⟨rfl, fun h => absurd rfl h, fun _ h => absurd h List.not_mem_nil⟩
variable {rows : List (SigchainRow N)}

theorem numbered_concat :
    (rows ++ [row]).map SigchainRow.seqNo = List.range (rows ++ [row]).length ↔
      rows.map SigchainRow.seqNo = List.range rows.length ∧ row.seqNo = rows.length := by
  rw [List.map_append, List.length_append, List.length_singleton, List.range_succ,
    List.map_singleton]
  constructor
  · intro h
    obtain ⟨hrows, hrow⟩ := List.append_inj' h rfl
    exact ⟨hrows, (List.cons.inj hrow).1⟩
  · rintro ⟨hrows, hrow⟩
    rw [hrows, hrow]

/-- The head of numbered rows is the last one. -/
theorem currentHead_eq_getLast?
    (h : rows.map SigchainRow.seqNo = List.range rows.length) :
    currentHead rows = rows.getLast? := by
  rcases List.eq_nil_or_concat' rows with rfl | ⟨init, last, rfl⟩
  · rfl
  obtain ⟨hinit, hlast⟩ := numbered_concat.mp h
  rw [currentHead, List.argmax_concat, List.getLast?_concat]
  cases hmax : init.argmax (·.seqNo) with
  | none => rfl
  | some m =>
    have hm : m.seqNo ∈ List.range init.length :=
      hinit ▸ List.mem_map_of_mem (List.argmax_mem hmax)
    exact if_pos (hlast ▸ List.mem_range.mp hm)

/-- The next number of numbered rows is their count. -/
theorem expectedSeqNo_eq
    (h : rows.map SigchainRow.seqNo = List.range rows.length) :
    expectedSeqNo (currentHead rows) = rows.length := by
  rw [currentHead_eq_getLast? h]
  rcases List.eq_nil_or_concat' rows with rfl | ⟨init, last, rfl⟩
  · rfl
  · rw [List.getLast?_concat, expectedSeqNo, Option.elim_some, (numbered_concat.mp h).2,
      List.length_append, List.length_singleton]

/-- **A checked row that follows the head extends the chain.** -/
theorem ServerChain.concat
    (hrows : ServerChain prims rows)
    (hseq : row.seqNo = expectedSeqNo (currentHead rows))
    (hprev : row.prevHash = expectedPrevHash (currentHead rows)) (hrow : Checked prims row) :
    ServerChain prims (rows ++ [row]) := by
  have hnumbered := numbered_concat.mpr ⟨hrows.seqNos, hseq.trans (expectedSeqNo_eq hrows.seqNos)⟩
  refine ⟨hnumbered, fun _ => ?_, fun r hr => ?_⟩
  · rw [currentHead_eq_getLast? hrows.seqNos] at hprev
    rw [List.reverse_append, List.reverse_singleton, List.singleton_append]
    rcases List.eq_nil_or_concat' rows with rfl | ⟨init, last, rfl⟩
    · exact .genesis (if_pos hprev)
    · have hlinked := hrows.linked (by simp)
      rw [List.reverse_append, List.reverse_singleton, List.singleton_append] at hlinked ⊢
      rw [List.getLast?_concat] at hprev
      refine .next ?_ hlinked
      have hne := (hrows.checked last (by simp)).hash_ne
      rw [parent, hprev]
      exact if_neg hne
  · rcases List.mem_append.mp hr with hr | hr
    · exact hrows.checked r hr
    · rw [List.mem_singleton.mp hr]
      exact hrow

theorem rowsOf_concat (table : List (SigchainRow N)) (row : SigchainRow N) (userPubkey : String) :
    rowsOf (table ++ [row]) userPubkey =
      if row.userPubkey = userPubkey then rowsOf table userPubkey ++ [row]
      else rowsOf table userPubkey := by
  unfold rowsOf
  rw [List.filter_append]
  by_cases h : row.userPubkey = userPubkey <;> simp [h]

/-- An accepted call keeps every user's rows a chain. -/
theorem append_serverChain {table table' : List (SigchainRow N)}
    {call : AppendCall N} (htable : ∀ user, ServerChain prims (rowsOf table user))
    (h : append prims table call = .ok table') :
    ∀ user, ServerChain prims (rowsOf table' user) := by
  unfold append at h
  split at h
  · rename_i row hrow
    cases h
    obtain ⟨huser, hseq, hprev, hchecked⟩ := appendSigchainLink_ok hrow
    intro user
    rw [rowsOf_concat, huser]
    by_cases hsame : call.userPubkey = user
    · rw [if_pos hsame]
      rw [hsame] at hseq hprev
      exact (htable user).concat hseq hprev hchecked
    · rw [if_neg hsame]
      exact htable user
  · cases h

/-- **Accepted links form a hash chain**, numbered from 0, for every user. -/
theorem appendAll_serverChain {table table' : List (SigchainRow N)}
    {calls : List (AppendCall N)} (htable : ∀ user, ServerChain prims (rowsOf table user))
    (h : appendAll prims table calls = .ok table') :
    ∀ user, ServerChain prims (rowsOf table' user) := by
  induction calls generalizing table with
  | nil =>
    cases h
    exact htable
  | cons call calls ih =>
    unfold appendAll at h
    rw [List.foldlM_cons] at h
    cases hcall : append prims table call with
    | error e =>
      rw [hcall] at h
      cases h
    | ok next =>
      rw [hcall] at h
      exact ih (append_serverChain htable hcall) h

/-- The chain is stored in its order. -/
theorem storedChain_eq {table : List (SigchainRow N)} {user : String}
    (h : ServerChain prims (rowsOf table user)) : storedChain table user = rowsOf table user := by
  have hlt : ((rowsOf table user).map SigchainRow.seqNo).Pairwise (· < ·) :=
    h.seqNos ▸ List.pairwise_lt_range
  have hle : (rowsOf table user).Pairwise fun a b => a.seqNo ≤ b.seqNo :=
    (List.pairwise_map.mp hlt).imp Nat.le_of_lt
  exact hle.insertionSort_eq

/-! ## Against the crypto core's verifier -/

/-- A stored row as a link of the crypto core, field by field, with a text of its payload. -/
def SigchainRow.toLink (payloadText : Json N → String) (row : SigchainRow N) :
    Sigchain.SigchainLink where
  id := row.id
  seq := UInt64.ofNat row.seqNo
  prevHash := parent row
  entryHash := row.hash
  signerDeviceId := row.signerDeviceId
  signerPubkey := row.signerPubkey
  signature := row.signature
  timestamp := row.linkTimestamp
  payloadJson := payloadText row.payload

/-- **The verifier rejects every stored chain**: it starts at 0 where the verifier wants 1, and
without a link it wants one. -/
theorem storedChain_rejected {F : Type} {prims : CryptoKeysPrims N} {calls : List (AppendCall N)}
    {table : List (SigchainRow N)} (h : appendAll prims [] calls = .ok table)
    (p : Profile) (verifier : Sigchain.SigchainPrims F) (payloadText : Json N → String)
    (userPubkey : String) :
    ¬ ∃ state, Sigchain.verifySigchain p verifier
      ((storedChain table userPubkey).map (SigchainRow.toLink payloadText)) = .ok state := by
  have hchain := appendAll_serverChain (fun _ => serverChain_nil prims) h userPubkey
  rw [storedChain_eq hchain]
  have hseq := hchain.seqNos
  cases hrows : rowsOf table userPubkey with
  | nil =>
    rintro ⟨state, hok⟩
    cases hok
  | cons first rest =>
    rintro ⟨state, hok⟩
    obtain ⟨link, links, _, _, hlinks, hfirst, -, -⟩ := Sigchain.verifySigchain_ok hok
    rw [hrows, List.length_cons, List.range_succ_eq_map] at hseq
    have hzero : first.seqNo = 0 := (List.cons.inj hseq).1
    obtain ⟨rfl, -⟩ := List.cons.inj hlinks
    have hone : UInt64.ofNat first.seqNo = 1 := (Sigchain.verifyFirst_ok hfirst).1
    rw [hzero] at hone
    exact absurd hone (by decide)

/-! ## A chain of one link -/

/-- A first link, with the digest and signature that SHA-256 and Ed25519 give it. -/
def sampleGenesis : NewLink Int where
  seqNo := 0
  linkType := "genesis"
  payload := .obj [("type", .str "user_init"), ("deviceId", .str "dev-1")]
  signature := "4618931f16b977c17f527bb69c58cdb965b688b4db3e5944bdfa126ea6ab4778" ++
    "c6b49ef7bde3682d101f81e67598d5890c67e4b0bbabc418b375d3624d3d2707"
  prevHash := ""
  hash := "4c83dc8bb9f74e97418b0de43a145b3279f2b852d2333c0448d0dc5e5f7318f1"
  signerDeviceId := "dev-1"
  signerPubkey := Sigchain.sampleKey
  timestamp := "2026-01-01T00:00:00Z"

/-- The text that is hashed for it. -/
def sampleCanonical : String :=
  "\x7b\"payload\":\x7b\"deviceId\":\"dev-1\",\"type\":\"user_init\"\x7d,\"prevHash\":null," ++
    "\"seq\":0,\"signerDeviceId\":\"dev-1\",\"signerPubkey\":\"" ++ Sigchain.sampleKey ++
    "\",\"timestamp\":\"2026-01-01T00:00:00Z\"\x7d"

/-- SHA-256 and Ed25519 on it. -/
def samplePrims : CryptoKeysPrims Int where
  js := integerJs fun _ => none
  ofNat n := n
  sha256 bytes := if bytes = asBytes sampleCanonical then U8Array.ofHex 32 sampleGenesis.hash
    else U8Array.ofHex 32 ""
  ed25519 key := some fun message signature =>
    key == U8Array.ofHex 32 Sigchain.sampleKey &&
      message == (U8Array.ofHex 32 sampleGenesis.hash).bytes &&
      signature == U8Array.ofHex 64 sampleGenesis.signature

def sampleCall : AppendCall Int where
  userPubkey := Sigchain.sampleKey
  link := sampleGenesis
  insert := ⟨"4f1c9f5e-2f7a-4c39-9b1e-1f0d6b8f0a11", "2026-01-01T00:00:01Z", false⟩

/-- The row that it leaves. -/
def sampleRow : SigchainRow Int where
  id := sampleCall.insert.id
  userPubkey := Sigchain.sampleKey
  seqNo := 0
  linkType := "genesis"
  payload := sampleGenesis.payload
  signature := sampleGenesis.signature
  prevHash := ""
  hash := sampleGenesis.hash
  signerDeviceId := "dev-1"
  signerPubkey := Sigchain.sampleKey
  linkTimestamp := "2026-01-01T00:00:00Z"
  createdAt := sampleCall.insert.createdAt

theorem sampleGenesis_hash :
    asBytes (recomputedHash samplePrims sampleGenesis) = toLowerCase sampleGenesis.hash := by
  decide +kernel

theorem sampleGenesis_signed :
    verifyLinkSignature samplePrims Sigchain.sampleKey sampleGenesis = some true := by
  decide +kernel

theorem sampleCall_accepted : appendAll samplePrims [] [sampleCall] = .ok [sampleRow] := by
  have happend : appendSigchainLink samplePrims [] Sigchain.sampleKey sampleGenesis
      sampleCall.insert = .ok sampleRow := by
    have hseq : sampleGenesis.seqNo =
        expectedSeqNo (currentHead (rowsOf ([] : List (SigchainRow Int)) Sigchain.sampleKey)) := rfl
    have hprev : sampleGenesis.prevHash =
        expectedPrevHash (currentHead (rowsOf ([] : List (SigchainRow Int)) Sigchain.sampleKey)) :=
      rfl
    unfold appendSigchainLink
    dsimp only
    rw [if_neg (not_not_intro hseq), if_neg (not_not_intro hprev),
      if_neg (not_not_intro sampleGenesis_hash), sampleGenesis_signed]
    rfl
  have hcall : append samplePrims [] sampleCall = .ok [sampleRow] := by
    unfold append
    have hargs : appendSigchainLink samplePrims [] sampleCall.userPubkey sampleCall.link
        sampleCall.insert = .ok sampleRow := happend
    rw [hargs]
    rfl
  rw [appendAll, List.foldlM_cons, hcall]
  rfl

theorem sampleChain_rejected : ¬ ∃ state, Sigchain.verifySigchain ⟨true⟩ Sigchain.samplePrims
    ((storedChain [sampleRow] Sigchain.sampleKey).map
      (SigchainRow.toLink fun _ => Sigchain.initPayload)) = .ok state :=
  storedChain_rejected sampleCall_accepted ⟨true⟩ Sigchain.samplePrims
    (fun _ => Sigchain.initPayload) Sigchain.sampleKey

/-- **The server accepts a first link, and the verifier rejects the chain of it.** -/
theorem sampleGenesis_rejected : appendAll samplePrims [] [sampleCall] = .ok [sampleRow] ∧
    Sigchain.verifySigchain ⟨true⟩ Sigchain.samplePrims
      ((storedChain [sampleRow] Sigchain.sampleKey).map
        (SigchainRow.toLink fun _ => Sigchain.initPayload)) =
      .err (.invalidInput "first sigchain link must have seq=1") := by
  refine ⟨sampleCall_accepted, ?_⟩
  decide +kernel

end Llamenos.Worker.CryptoKeys

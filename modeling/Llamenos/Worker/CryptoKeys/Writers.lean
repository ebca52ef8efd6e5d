import Llamenos.Lib.Runs
import Llamenos.Worker.CryptoKeys
import Llamenos.Worker.HubAccess

/-!
# The two writers of a sigchain

`appendSigchainLink` reads the head of the user's chain, checks the link against it, and inserts it
with another statement; nothing in the table keeps two links of one number apart. `revokeDevice` of
`apps/worker/services/identity.ts` inserts a link for the removed device with the number, the hashes
and the signature that it is given, and checks none of them, although it says that the server
validates the continuity of the chain. The other requests leave in the other tables what they like.

Results:
* `oneChain_concat_iff`: what a row must be, to go on with a chain.
* `chains_stay_iff`: **every user's links stay one chain exactly if each link is inserted under the
  head that it was checked against, and revocations are given links that follow the head**.
* `chain_forks`: two overlapping calls with one link, and a revocation's link that is out of order.
-/

namespace Llamenos.Worker.CryptoKeys.Writers

open Llamenos.Lib Llamenos.Crypto Llamenos.Shared.Permissions

variable {N : Type}

/-! ## Appending a link, in two statements -/

/-- The checks of `appendSigchainLink`, after it has read the head. -/
def validateLink (prims : CryptoKeysPrims N) (head : Option (SigchainRow N)) (userPubkey : String)
    (link : NewLink N) : Except AppendError Unit :=
  if link.seqNo ≠ expectedSeqNo head then
    .error (.cryptoKey
      s!"sigchain sequence mismatch: expected {expectedSeqNo head}, got {link.seqNo}" 409)
  else if link.prevHash ≠ expectedPrevHash head then
    .error (.cryptoKey "sigchain prevHash mismatch: does not match current chain head" 409)
  else if asBytes (recomputedHash prims link) ≠ toLowerCase link.hash then
    .error (.cryptoKey ("sigchain hash mismatch: recomputed hash does not match claimed hash — " ++
      "payload may have been tampered") 400)
  else
    match verifyLinkSignature prims userPubkey link with
    | none => .error (.cryptoKey "sigchain signature verification failed: invalid format" 400)
    | some false => .error (.cryptoKey "sigchain signature verification failed" 403)
    | some true => .ok ()

/-- The row that is inserted for the link. -/
def linkRow (userPubkey : String) (link : NewLink N) (insert : Insert) : SigchainRow N where
  id := insert.id
  userPubkey := userPubkey
  seqNo := link.seqNo
  linkType := link.linkType
  payload := link.payload
  signature := link.signature
  prevHash := link.prevHash
  hash := link.hash
  signerDeviceId := link.signerDeviceId
  signerPubkey := link.signerPubkey
  linkTimestamp := link.timestamp
  createdAt := insert.createdAt

/-- The insert into `sigchain_links`, whose column `seq_no` holds 32 bits. -/
def insertRow (row : SigchainRow N) (fails : Bool) : Except AppendError (SigchainRow N) :=
  if fails || row.seqNo > 2147483647 then .error .database else .ok row

/-! ## Revoking a device -/

/-- A row of `devices`. -/
structure Device where
  id : String
  pubkey : String
  ed25519Pubkey : Option String
  platform : String

/-- A row of `sessions`, with the `deviceId` of its `deviceInfo`. -/
structure Session where
  token : String
  pubkey : String
  deviceId : Option String

/-- A row of `security_events`. -/
structure SecurityEvent (N : Type) where
  userPubkey : String
  eventType : String
  deviceId : String
  metadata : Json N

/-- What a revocation is given of a link. -/
structure SigchainData where
  signature : Option String
  sigchainHash : Option String
  sigchainSeqNo : Option Nat
  sigchainPrevHash : Option String

structure Db (N : Type) where
  links : List (SigchainRow N)
  devices : List Device
  sessions : List Session
  users : List HubAccess.User
  securityEvents : List (SecurityEvent N)

/-- The `device_remove` link of a revocation, if it is given one. The columns that it leaves out
have their defaults. -/
def revocationRow (pubkey : String) (device : Device) (data : SigchainData) (insert : Insert) :
    Option (SigchainRow N) := do
  let signature ← data.signature.filter (· ≠ "")
  let hash ← data.sigchainHash
  let seqNo ← data.sigchainSeqNo
  some
    { id := insert.id, userPubkey := pubkey, seqNo, linkType := "device_remove",
      payload := .obj
        [("deviceId", .str device.id),
          ("devicePubkey", device.ed25519Pubkey.elim .null .str),
          ("platform", .str device.platform)],
      signature, prevHash := data.sigchainPrevHash.getD "", hash, signerDeviceId := "",
      signerPubkey := "", linkTimestamp := "", createdAt := insert.createdAt }

/-- The event that a revocation leaves. -/
def revocationEvent (prims : CryptoKeysPrims N) (pubkey : String) (device : Device)
    (data : SigchainData) : SecurityEvent N where
  userPubkey := pubkey
  eventType := "device_remove"
  deviceId := device.id
  metadata := .obj
    ([("revokedDeviceId", .str device.id), ("platform", .str device.platform)] ++
      data.sigchainSeqNo.toList.map fun seqNo => ("sigchainSeqNo", .num (prims.ofNat seqNo)))

/-- The transaction of a revocation: the links, and the rows that it deletes and adds. -/
def Db.revoke (db : Db N) (prims : CryptoKeysPrims N) (pubkey : String) (device : Device)
    (data : SigchainData) (links : List (SigchainRow N)) : Db N :=
  { db with
    links := links
    devices := db.devices.filter fun row => row.id ≠ device.id
    sessions := db.sessions.filter fun row =>
      ¬ (row.pubkey = pubkey ∧ row.deviceId = some device.id)
    securityEvents := db.securityEvents ++ [revocationEvent prims pubkey device data] }

/-- The links after the revocation's transaction, or `none` if the transaction fails. -/
def revokedLinks (links : List (SigchainRow N)) (pubkey : String) (device : Device)
    (data : SigchainData) (insert : Insert) : Option (List (SigchainRow N)) :=
  match revocationRow pubkey device data insert with
  | none => if insert.fails then none else some links
  | some row => (insertRow row insert.fails).toOption.map fun row => links ++ [row]

/-! ## Overlapping calls -/

/-- Where a call is. -/
inductive Call (N : Type) where
  | appending (userPubkey : String) (link : NewLink N) (head : Option (SigchainRow N))
  | appended (result : Except AppendError (SigchainRow N))
  | revoking (pubkey : String) (device : Device) (data : SigchainData)
  | transacting (pubkey : String) (device : Device) (data : SigchainData) (hubIds : List String)
  | revoked (result : Option (List String))
  | failed

structure State (N : Type) where
  db : Db N
  calls : Nat → Option (Call N)

/-- What happens next: a statement of a call, or other requests change the other tables. -/
inductive Event (N : Type) where
  | appendSigchainLink (c : Nat) (userPubkey : String) (link : NewLink N)
  | insertLink (c : Nat) (insert : Insert)
  | revokeDevice (c : Nat) (pubkey deviceId : String) (data : SigchainData)
  | selectUser (c : Nat)
  | transact (c : Nat) (insert : Insert)
  | others (devices : List Device) (sessions : List Session) (users : List HubAccess.User)
      (securityEvents : List (SecurityEvent N))

def State.goOn (s : State N) (c : Nat) (call : Call N) : State N :=
  { s with calls := Function.update s.calls c (some call) }

/-- A call's first statement, and what it does with the answer. -/
def State.begin (s : State N) (c : Nat) (call : Call N) : Option (State N) :=
  match s.calls c with
  | none => some (s.goOn c call)
  | some _ => none

def step (prims : CryptoKeysPrims N) (s : State N) : Event N → Option (State N)
  | .appendSigchainLink c userPubkey link =>
    let head := currentHead (rowsOf s.db.links userPubkey)
    s.begin c (match validateLink prims head userPubkey link with
      | .ok () => .appending userPubkey link head
      | .error e => .appended (.error e))
  | .insertLink c insert =>
    match s.calls c with
    | some (.appending userPubkey link _) =>
      match insertRow (linkRow userPubkey link insert) insert.fails with
      | .ok row =>
        some (State.goOn { s with db := { s.db with links := s.db.links ++ [row] } } c
          (.appended (.ok row)))
      | .error e => some (s.goOn c (.appended (.error e)))
    | _ => none
  | .revokeDevice c pubkey deviceId data =>
    s.begin c (match s.db.devices.find? fun row => row.id = deviceId ∧ row.pubkey = pubkey with
      | some device => .revoking pubkey device data
      | none => .revoked none)
  | .selectUser c =>
    match s.calls c with
    | some (.revoking pubkey device data) =>
      let hubRoles := (s.db.users.find? (·.pubkey = pubkey)).bind (·.hubRoles)
      some (s.goOn c (.transacting pubkey device data ((hubRoles.getD []).map HubRole.hubId)))
    | _ => none
  | .transact c insert =>
    match s.calls c with
    | some (.transacting pubkey device data hubIds) =>
      match revokedLinks s.db.links pubkey device data insert with
      | some links =>
        some (State.goOn { s with db := s.db.revoke prims pubkey device data links } c
          (.revoked (some hubIds)))
      | none => some (s.goOn c .failed)
    | _ => none
  | .others devices sessions users securityEvents =>
    some { s with db := { s.db with devices, sessions, users, securityEvents } }

/-- No call has begun. -/
def start (db : Db N) : State N := ⟨db, fun _ => none⟩

/-! ## The property -/

/-- A row's hash is recomputed from its own fields, up to the letter case of the text. -/
def Recomputed (prims : CryptoKeysPrims N) (row : SigchainRow N) : Prop :=
  toLowerCase row.hash = asBytes (recomputedHash prims row.link)

/-- A user's rows are one chain: numbered from 0 without a gap or a double, each one with the hash
of the row before it, and hashed over its own fields. -/
structure OneChain (prims : CryptoKeysPrims N) (rows : List (SigchainRow N)) : Prop where
  numbered : (rows.map SigchainRow.seqNo).Perm (List.range rows.length)
  first : ∀ row ∈ rows, row.seqNo = 0 → row.prevHash = ""
  linked : ∀ before ∈ rows, ∀ row ∈ rows, row.seqNo = before.seqNo + 1 → row.prevHash = before.hash
  recomputed : ∀ row ∈ rows, Recomputed prims row

/-- Every user's stored links are one chain. -/
def AllChains (prims : CryptoKeysPrims N) (links : List (SigchainRow N)) : Prop :=
  ∀ userPubkey, OneChain prims (rowsOf links userPubkey)

/-- The two heads have one number and one hash. -/
def SameHead (head head' : Option (SigchainRow N)) : Prop :=
  head.map (fun row => (row.seqNo, row.hash)) = head'.map fun row => (row.seqNo, row.hash)

/-- The row goes on from the head of its user's chain. -/
def Continues (prims : CryptoKeysPrims N) (links : List (SigchainRow N)) (row : SigchainRow N) :
    Prop :=
  row.seqNo = expectedSeqNo (currentHead (rowsOf links row.userPubkey)) ∧
    row.prevHash = expectedPrevHash (currentHead (rowsOf links row.userPubkey)) ∧
    Recomputed prims row

/-- What a statement must be, to keep the chains: an append's insert that succeeds comes while the
head is the one that the call has read, and a revocation that succeeds is given no link, or one that
goes on from the head. -/
def Follows (prims : CryptoKeysPrims N) (s : State N) : Event N → Prop
  | .insertLink c insert => ∀ userPubkey link head,
    s.calls c = some (.appending userPubkey link head) →
      ∀ row, insertRow (linkRow userPubkey link insert) insert.fails = .ok row →
        SameHead (currentHead (rowsOf s.db.links userPubkey)) head
  | .transact c insert => ∀ pubkey device data hubIds,
    s.calls c = some (.transacting pubkey device data hubIds) →
      ∀ row ∈ revocationRow pubkey device data insert,
        ∀ stored, insertRow row insert.fails = .ok stored → Continues prims s.db.links stored
  | _ => True

/-! ## The check and the insert -/

section Append

variable {prims : CryptoKeysPrims N} {head head' : Option (SigchainRow N)} {userPubkey : String}
  {link : NewLink N}

theorem validateLink_ok (h : validateLink prims head userPubkey link = .ok ()) :
    link.seqNo = expectedSeqNo head ∧ link.prevHash = expectedPrevHash head ∧
      toLowerCase link.hash = asBytes (recomputedHash prims link) := by
  unfold validateLink at h
  split_ifs at h with hseq hprev hhash
  exact ⟨not_not.mp hseq, not_not.mp hprev, (not_not.mp hhash).symm⟩

theorem insertRow_ok {row stored : SigchainRow N} {fails : Bool}
    (h : insertRow row fails = .ok stored) : stored = row := by
  unfold insertRow at h
  split_ifs at h
  exact (Except.ok.inj h).symm

/-- Links that follow both heads tell them apart from no other. -/
theorem sameHead_iff : SameHead head head' ↔
    expectedSeqNo head = expectedSeqNo head' ∧ expectedPrevHash head = expectedPrevHash head' := by
  cases head <;> cases head' <;> simp [SameHead, expectedSeqNo, expectedPrevHash]

end Append

/-! ## One more row -/

section Chain

variable {prims : CryptoKeysPrims N} {rows : List (SigchainRow N)} {row : SigchainRow N}

theorem oneChain_nil (prims : CryptoKeysPrims N) : OneChain prims [] :=
  ⟨.refl _, nofun, nofun, nofun⟩

theorem OneChain.lt_length (h : OneChain prims rows) (hrow : row ∈ rows) :
    row.seqNo < rows.length :=
  List.mem_range.mp (h.numbered.subset (List.mem_map_of_mem hrow))

/-- The number tells the row. -/
theorem OneChain.eq_of_seqNo (h : OneChain prims rows) {row' : SigchainRow N} (hrow : row ∈ rows)
    (hrow' : row' ∈ rows) (hseq : row.seqNo = row'.seqNo) : row = row' :=
  List.inj_on_of_nodup_map (h.numbered.nodup_iff.mpr List.nodup_range) hrow hrow' hseq

/-- The head has the highest number. -/
theorem OneChain.head (h : OneChain prims rows) (hrows : rows ≠ []) :
    ∃ head ∈ rows, currentHead rows = some head ∧ rows.length = head.seqNo + 1 := by
  have hsome : currentHead rows ≠ none := fun hnone => hrows (List.argmax_eq_none.mp hnone)
  obtain ⟨head, hhead⟩ := Option.ne_none_iff_exists'.mp hsome
  have hmem : head ∈ rows := List.argmax_mem hhead
  have hlt := h.lt_length hmem
  have hlast : rows.length - 1 ∈ rows.map SigchainRow.seqNo :=
    h.numbered.symm.subset (List.mem_range.mpr (by omega))
  obtain ⟨last, hlast, hseq⟩ := List.mem_map.mp hlast
  have hle : last.seqNo ≤ head.seqNo := List.le_of_mem_argmax hlast hhead
  exact ⟨head, hmem, hhead, by omega⟩

theorem OneChain.expectedSeqNo (h : OneChain prims rows) :
    expectedSeqNo (currentHead rows) = rows.length := by
  by_cases hrows : rows = []
  · rw [hrows]
    rfl
  · obtain ⟨head, -, hhead, hlength⟩ := h.head hrows
    rw [hhead, hlength]
    rfl

/-- One more number after those there are is the next one. -/
theorem numbered_concat_iff (h : OneChain prims rows) :
    ((rows ++ [row]).map SigchainRow.seqNo).Perm (List.range (rows ++ [row]).length) ↔
      row.seqNo = rows.length := by
  rw [List.map_append, List.map_singleton, List.length_append, List.length_singleton,
    List.range_succ]
  have hperm := h.numbered.append_right [row.seqNo]
  constructor
  · intro hnext
    have hlast := (List.perm_append_left_iff _).mp (hperm.symm.trans hnext)
    exact List.singleton_inj.mp (List.perm_singleton.mp hlast)
  · intro hseq
    rwa [hseq] at hperm ⊢

/-- **A row goes on with a chain exactly if it has the next number and the head's hash, and is
hashed over its own fields.** -/
theorem oneChain_concat_iff (h : OneChain prims rows) :
    OneChain prims (rows ++ [row]) ↔
      row.seqNo = CryptoKeys.expectedSeqNo (currentHead rows) ∧
        row.prevHash = expectedPrevHash (currentHead rows) ∧ Recomputed prims row := by
  rw [h.expectedSeqNo]
  constructor
  · intro hchain
    have hseq := (numbered_concat_iff h).mp hchain.numbered
    have hrow : row ∈ rows ++ [row] := List.mem_append_right _ (List.mem_singleton_self row)
    refine ⟨hseq, ?_, hchain.recomputed row hrow⟩
    by_cases hrows : rows = []
    · subst hrows
      exact hchain.first row hrow hseq
    · obtain ⟨head, hmem, hhead, hlength⟩ := h.head hrows
      rw [hhead]
      exact hchain.linked head (List.mem_append_left _ hmem) row hrow (hseq.trans hlength)
  · rintro ⟨hseq, hprev, hhash⟩
    refine ⟨(numbered_concat_iff h).mpr hseq, ?_, ?_, ?_⟩
    · intro r hr hzero
      rcases List.mem_append.mp hr with hr | hr
      · exact h.first r hr hzero
      · obtain rfl := List.mem_singleton.mp hr
        obtain rfl := List.length_eq_zero_iff.mp (hseq.symm.trans hzero)
        exact hprev
    · intro before hbefore r hr hnext
      rcases List.mem_append.mp hbefore with hold | hnew
      · rcases List.mem_append.mp hr with hr | hr
        · exact h.linked before hold r hr hnext
        · obtain ⟨head, hmem, hhead, hlength⟩ := h.head (List.ne_nil_of_mem hold)
          rw [List.mem_singleton.mp hr] at hnext ⊢
          rw [h.eq_of_seqNo hold hmem (by omega), hprev, hhead]
          rfl
      · rw [List.mem_singleton.mp hnew] at hnext
        -- no row has a number above the new one's
        rcases List.mem_append.mp hr with hr | hr
        · have := h.lt_length hr
          omega
        · rw [List.mem_singleton.mp hr] at hnext
          omega
    · intro r hr
      rcases List.mem_append.mp hr with hr | hr
      · exact h.recomputed r hr
      · exact List.mem_singleton.mp hr ▸ hhash

/-- The same for the table of all users. -/
theorem allChains_concat_iff {links : List (SigchainRow N)} (h : AllChains prims links) :
    AllChains prims (links ++ [row]) ↔ Continues prims links row := by
  have hown : OneChain prims (rowsOf links row.userPubkey ++ [row]) ↔ Continues prims links row :=
    oneChain_concat_iff (h row.userPubkey)
  constructor
  · intro hall
    have hchain := hall row.userPubkey
    rw [rowsOf_concat, if_pos rfl] at hchain
    exact hown.mp hchain
  · intro hrow userPubkey
    rw [rowsOf_concat]
    split_ifs with hsame
    · exact hsame ▸ hown.mpr hrow
    · exact h userPubkey

end Chain

/-! ## Every run -/

section Steps

variable {prims : CryptoKeysPrims N} {s s' : State N}

/-- The calls that are about to insert have checked their links. -/
def Validated (prims : CryptoKeysPrims N) (s : State N) : Prop :=
  ∀ c userPubkey link head, s.calls c = some (.appending userPubkey link head) →
    validateLink prims head userPubkey link = .ok ()

@[simp] theorem goOn_db (s : State N) (c : Nat) (call : Call N) : (s.goOn c call).db = s.db := rfl

theorem begin_eq_some {c : Nat} {call : Call N} (h : s.begin c call = some s') :
    s' = s.goOn c call := by
  unfold State.begin at h
  split at h
  · exact (Option.some.inj h).symm
  · cases h

/-- A call that goes on has checked its link, if it is one that is about to insert. -/
theorem Validated.goOn (h : Validated prims s) {c : Nat} {call : Call N}
    (hcall : ∀ userPubkey link head, call = .appending userPubkey link head →
      validateLink prims head userPubkey link = .ok ()) : Validated prims (s.goOn c call) := by
  intro d userPubkey link head hd
  rcases Runs.update_eq_some hd with ⟨-, hnew⟩ | ⟨-, hold⟩
  · exact hcall userPubkey link head (Option.some.inj hnew)
  · exact h d userPubkey link head hold

theorem step_validated (e : Event N) (h : Validated prims s) (hstep : step prims s e = some s') :
    Validated prims s' := by
  cases e with
  | appendSigchainLink c userPubkey link =>
    rw [begin_eq_some hstep]
    refine h.goOn fun user given head hcall => ?_
    split at hcall
    · rename_i hvalid
      injection hcall with huser hlink hhead
      rw [← huser, ← hlink, ← hhead]
      exact hvalid
    · cases hcall
  | insertLink c insert =>
    dsimp only [step] at hstep
    split at hstep
    · split at hstep
      · exact Option.some.inj hstep ▸
          Validated.goOn (s := { s with db := _ }) h fun _ _ _ hcall => by cases hcall
      · exact Option.some.inj hstep ▸ h.goOn fun _ _ _ hcall => by cases hcall
    · cases hstep
  | revokeDevice c pubkey deviceId data =>
    rw [begin_eq_some hstep]
    refine h.goOn fun user given head hcall => ?_
    split at hcall <;> cases hcall
  | selectUser c =>
    dsimp only [step] at hstep
    split at hstep
    · exact Option.some.inj hstep ▸ h.goOn fun _ _ _ hcall => by cases hcall
    · cases hstep
  | transact c insert =>
    dsimp only [step] at hstep
    split at hstep
    · split at hstep
      · exact Option.some.inj hstep ▸
          Validated.goOn (s := { s with db := _ }) h fun _ _ _ hcall => by cases hcall
      · exact Option.some.inj hstep ▸ h.goOn fun _ _ _ hcall => by cases hcall
    · cases hstep
  | others devices sessions users securityEvents =>
    exact Option.some.inj hstep ▸ h

/-- An append's insert keeps the chains exactly if the head is still the one that it has read. -/
theorem insertLink_chains_iff {c : Nat} {insert : Insert} (hs : Validated prims s)
    (hchains : AllChains prims s.db.links) (h : step prims s (.insertLink c insert) = some s') :
    AllChains prims s'.db.links ↔ Follows prims s (.insertLink c insert) := by
  dsimp only [step] at h
  split at h
  · rename_i userPubkey link head hcall
    obtain ⟨hseq, hprev, hhash⟩ := validateLink_ok (hs c userPubkey link head hcall)
    split at h
    · rename_i row hinsert
      obtain rfl := Option.some.inj h
      have hrow := insertRow_ok hinsert
      have hsame : Continues prims s.db.links row ↔
          SameHead (currentHead (rowsOf s.db.links userPubkey)) head := by
        rw [sameHead_iff, ← hseq, ← hprev, hrow]
        constructor
        · rintro ⟨hnext, hlast, -⟩
          exact ⟨hnext.symm, hlast.symm⟩
        · rintro ⟨hnext, hlast⟩
          exact ⟨hnext.symm, hlast.symm, hhash⟩
      rw [goOn_db, allChains_concat_iff hchains, hsame]
      constructor
      · intro hhead user given read hread _ _
        rw [hcall] at hread
        cases hread
        exact hhead
      · intro hfollows
        exact hfollows userPubkey link head hcall row hinsert
    · rename_i hinsert
      obtain rfl := Option.some.inj h
      refine iff_of_true hchains fun user given read hread row hrow => ?_
      rw [hcall] at hread
      cases hread
      rw [hinsert] at hrow
      cases hrow
  · cases h

/-- A revocation keeps the chains exactly if the link that it is given goes on from the head. -/
theorem transact_chains_iff {c : Nat} {insert : Insert} (hchains : AllChains prims s.db.links)
    (h : step prims s (.transact c insert) = some s') :
    AllChains prims s'.db.links ↔ Follows prims s (.transact c insert) := by
  dsimp only [step] at h
  split at h
  · rename_i pubkey device data hubIds hcall
    have hfollows : Follows prims s (.transact c insert) ↔
        ∀ row ∈ revocationRow pubkey device data insert,
          ∀ stored, insertRow row insert.fails = .ok stored →
            Continues prims s.db.links stored := by
      constructor
      · intro hall
        exact hall pubkey device data hubIds hcall
      · intro hall _ _ _ _ hread
        rw [hcall] at hread
        cases hread
        exact hall
    rw [hfollows]
    unfold revokedLinks at h
    cases hgiven : revocationRow pubkey device data insert with
    | none =>
      simp only [hgiven] at h
      split at h
      · rename_i links hlinks
        split_ifs at hlinks
        obtain rfl := Option.some.inj hlinks
        obtain rfl := Option.some.inj h
        exact iff_of_true hchains nofun
      · obtain rfl := Option.some.inj h
        exact iff_of_true hchains nofun
    | some row =>
      simp only [hgiven] at h
      cases hinsert : insertRow row insert.fails with
      | ok stored =>
        simp only [hinsert] at h
        obtain rfl := Option.some.inj h
        refine (allChains_concat_iff hchains).trans ⟨?_, fun hall => hall row rfl stored hinsert⟩
        intro hrow _ hmem _ hstored
        cases hmem
        rw [hinsert] at hstored
        cases hstored
        exact hrow
      | error e =>
        simp only [hinsert] at h
        obtain rfl := Option.some.inj h
        refine iff_of_true hchains fun _ hmem _ hstored => ?_
        cases hmem
        rw [hinsert] at hstored
        cases hstored
  · cases h

/-- **A statement keeps the chains exactly if it meets the condition.** -/
theorem step_chains_iff (e : Event N) (hs : Validated prims s)
    (hchains : AllChains prims s.db.links) (h : step prims s e = some s') :
    AllChains prims s'.db.links ↔ Follows prims s e := by
  cases e with
  | appendSigchainLink c userPubkey link =>
    rw [begin_eq_some h]
    exact iff_of_true hchains trivial
  | insertLink c insert => exact insertLink_chains_iff hs hchains h
  | revokeDevice c pubkey deviceId data =>
    rw [begin_eq_some h]
    exact iff_of_true hchains trivial
  | selectUser c =>
    dsimp only [step] at h
    split at h
    · exact Option.some.inj h ▸ iff_of_true hchains trivial
    · cases h
  | transact c insert => exact transact_chains_iff hchains h
  | others devices sessions users securityEvents =>
    exact Option.some.inj h ▸ iff_of_true hchains trivial

end Steps

/-- **Every user's stored links stay one chain exactly if each statement meets the condition**: an
append's insert comes under the head that the call has read, and a revocation's link goes on from
the head. -/
theorem chains_stay_iff (prims : CryptoKeysPrims N) (db : Db N) (hdb : AllChains prims db.links)
    {events : List (Event N)} {s : State N}
    (h : Runs.run (step prims) (start db) events = some s) :
    (∀ before after t, events = before ++ after →
        Runs.run (step prims) (start db) before = some t → AllChains prims t.db.links) ↔
      Runs.Along (step prims) (Follows prims) (start db) events :=
  Runs.inv_iff_along (I := Validated prims) (G := fun s => AllChains prims s.db.links)
    (fun _ e _ hs hstep => step_validated e hs hstep)
    (fun _ e _ hs hchains hstep => step_chains_iff e hs hchains hstep) nofun hdb h

/-- A user with one device and no link. -/
def sampleDb : Db Int where
  links := []
  devices := [⟨"dev-1", Sigchain.sampleKey, some Sigchain.sampleKey, "ios"⟩]
  sessions := []
  users := [{ pubkey := Sigchain.sampleKey, roles := ["role-volunteer"] }]
  securityEvents := []

def appendGenesis (c : Nat) : Event Int :=
  .appendSigchainLink c Sigchain.sampleKey sampleGenesis

def insertGenesis (c : Nat) (id : String) : Event Int :=
  .insertLink c ⟨id, "2026-01-01T00:00:01Z", false⟩

theorem sampleDb_chains : AllChains samplePrims sampleDb.links :=
  fun _ => oneChain_nil samplePrims

theorem sampleGenesis_valid :
    validateLink samplePrims none Sigchain.sampleKey sampleGenesis = .ok () := by
  have hseq : sampleGenesis.seqNo = expectedSeqNo (none : Option (SigchainRow Int)) := rfl
  have hprev : sampleGenesis.prevHash = expectedPrevHash (none : Option (SigchainRow Int)) := rfl
  unfold validateLink
  rw [if_neg (not_not_intro hseq), if_neg (not_not_intro hprev),
    if_neg (not_not_intro sampleGenesis_hash), sampleGenesis_signed]

/-- A call that finds no link goes on to insert the first one. -/
theorem step_appendGenesis {s : State Int} {c : Nat} (hfree : s.calls c = none)
    (hlinks : s.db.links = []) : step samplePrims s (appendGenesis c) =
      some (s.goOn c (.appending Sigchain.sampleKey sampleGenesis none)) := by
  have hhead : currentHead (rowsOf s.db.links Sigchain.sampleKey) = none := by
    rw [hlinks]
    rfl
  simp only [appendGenesis, step, hhead, sampleGenesis_valid, State.begin, hfree]

/-- The first link, and nothing between its check and its insert. -/
theorem genesis_chains :
    ∃ s, Runs.run (step samplePrims) (start sampleDb) [appendGenesis 0, insertGenesis 0 "a"] =
        some s ∧
      ∀ before after t, [appendGenesis 0, insertGenesis 0 "a"] = before ++ after →
        Runs.run (step samplePrims) (start sampleDb) before = some t →
          AllChains samplePrims t.db.links := by
  have hread := step_appendGenesis (s := start sampleDb) (c := 0) rfl rfl
  refine ⟨_, by rw [Runs.run, hread]; rfl, (chains_stay_iff samplePrims sampleDb sampleDb_chains
    (by rw [Runs.run, hread]; rfl)).mpr ⟨trivial, fun s hs => ⟨?_, fun _ _ => trivial⟩⟩⟩
  obtain rfl := Option.some.inj (hread.symm.trans hs)
  intro userPubkey link head hcall row _
  cases hcall
  rfl

/-- **Two links of one number.** Two calls with the same link both find the chain empty, and both
insert; and a revocation inserts a link with the number 5, where there is no other. -/
theorem chain_forks : AllChains samplePrims sampleDb.links ∧
    (∃ s ∈ Runs.run (step samplePrims) (start sampleDb)
        [appendGenesis 0, appendGenesis 1, insertGenesis 0 "a", insertGenesis 1 "b"],
      ¬ AllChains samplePrims s.db.links) ∧
    ∃ s ∈ Runs.run (step samplePrims) (start sampleDb)
        [.revokeDevice 0 Sigchain.sampleKey "dev-1"
            ⟨some sampleGenesis.signature, some sampleGenesis.hash, some 5, none⟩,
          .selectUser 0, .transact 0 ⟨"a", "2026-01-01T00:00:01Z", false⟩],
      ¬ AllChains samplePrims s.db.links := by
  have hnumbers : ∀ rows : List (SigchainRow Int), OneChain samplePrims rows →
      (rows.map SigchainRow.seqNo).Nodup ∧ ∀ n ∈ rows.map SigchainRow.seqNo, n < rows.length := by
    intro rows h
    refine ⟨h.numbered.nodup_iff.mpr List.nodup_range, fun n hn => ?_⟩
    exact List.mem_range.mp (h.numbered.subset hn)
  refine ⟨sampleDb_chains, ?_, ?_⟩
  · obtain ⟨s, hs, hseq⟩ : ∃ s ∈ Runs.run (step samplePrims) (start sampleDb)
        [appendGenesis 0, appendGenesis 1, insertGenesis 0 "a", insertGenesis 1 "b"],
        (rowsOf s.db.links Sigchain.sampleKey).map SigchainRow.seqNo = [0, 0] := by
      have hfirst := step_appendGenesis (s := start sampleDb) (c := 0) rfl rfl
      rw [Runs.run, hfirst, Option.bind_some, Runs.run, step_appendGenesis rfl rfl,
        Option.bind_some]
      decide +kernel
    refine ⟨s, hs, fun hall => ?_⟩
    have hnodup := (hnumbers _ (hall Sigchain.sampleKey)).1
    rw [hseq] at hnodup
    exact absurd hnodup (by decide)
  · obtain ⟨s, hs, hseq⟩ : ∃ s ∈ Runs.run (step samplePrims) (start sampleDb)
        [.revokeDevice 0 Sigchain.sampleKey "dev-1"
            ⟨some sampleGenesis.signature, some sampleGenesis.hash, some 5, none⟩,
          .selectUser 0, .transact 0 ⟨"a", "2026-01-01T00:00:01Z", false⟩],
        (rowsOf s.db.links Sigchain.sampleKey).map SigchainRow.seqNo = [5] := by
      decide +kernel
    refine ⟨s, hs, fun hall => ?_⟩
    have hlt := (hnumbers _ (hall Sigchain.sampleKey)).2 5 (by rw [hseq]; exact List.mem_cons_self)
    have hlength := congrArg List.length hseq
    rw [List.length_map] at hlength
    rw [hlength] at hlt
    exact absurd hlt (by decide)

end Llamenos.Worker.CryptoKeys.Writers

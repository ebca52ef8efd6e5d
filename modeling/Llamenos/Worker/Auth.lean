import Llamenos.Worker.Runtime
import Llamenos.Lib.ReplayGuard

/-!
# Request authentication

Model of `apps/worker/lib/auth.ts`, with `lib/revoked-signing-keys.ts` and what it uses of
`services/identity.ts`: the table of used nonces (`checkAndMarkAuthNonce`, and its part of
`cleanup`) and the lookup of a user. A header may hold any JSON. The clock, and what the identity
service answers, may be different at every request.

A request passes with a session, or with a signature over method and path that is fresh and whose
token is not in the table of nonces. The table's key is the digest of the token as it is spelled,
and a row is deleted after the token's age limit. This is a replay guard (`Lib.ReplayGuard`) whose
mark is that digest.

Results:
* `verifyAuthToken_created`: **the server takes the crypto core's tokens**, inside their window.
* `verifyAuthToken_true`: what a verified token is.
* `passedUses_sublist`: **the server's runs are runs of the guard**.
* `signatureUses_nodup`: in an orderly run, no signature lets two requests pass;
  `Orderly.of_numbers`: what makes a run orderly, beside the spelling of tokens.
* `respelled_passes_twice`: a token in upper case passes once more.
-/

namespace Llamenos.Worker.Auth

open Llamenos.Lib Llamenos.Crypto

/-! ## The code -/

/-- The runtime, SHA-256, Ed25519, and `TOKEN_MAX_AGE_MS`. -/
structure AuthPrims (N : Type) where
  js : Js N
  sha256 : Bytes → U8Array 32
  ed25519 : Ed25519
  tokenMaxAgeMs : ℚ

variable {N : Type}

/-- `AuthPayload`, as the properties of any parsed value. -/
structure AuthPayload (N : Type) where
  pubkey : Option (Json N)
  timestamp : Option (Json N)
  token : Option (Json N)
  nonce : Option (Json N)

def AuthPayload.ofJson (value : Json N) : AuthPayload N where
  pubkey := value.get? "pubkey"
  timestamp := value.get? "timestamp"
  token := value.get? "token"
  nonce := value.get? "nonce"

/-- `REVOKED_SIGNING_PUBKEYS`. -/
def revokedSigningPubkeys : List String :=
  ["0d786358b24f0a6eb7905b69649d8789df776144051a28da4f17e08bc716e7c8",
    "0daa88b11e127320b8bb320482258eac40b5192431a9cb0b40155b62515462d6",
    "627db7f2e7c832781e481fc43bcda730fc13022392b996a8f0a6ff99aa71d728",
    "2e2b68150166352733bc256cd023a9ca24be61f39388f0515096b009cf310a96",
    "4e5a92f65d0961fbc9927336a47964bf53a958eb8d08932c9b4378328c604a59"]

/-- `isRevokedSigningKey`. -/
def isRevokedSigningKey (pubkey : String) : Bool :=
  revokedSigningPubkeys.any fun key => toLowerCase pubkey == asBytes key

/-- `parseAuthHeader`. -/
def parseAuthHeader (js : Js N) (header : Option String) : Option (Json N) :=
  (header.bind (after "Bearer ")).bind js.parse

/-- `parseSessionHeader`. -/
def parseSessionHeader (header : Option String) : Option String :=
  (header.bind (after "Session ")).map trim

/-- `validateToken` at `Date.now()`. An age that is no number is neither too high nor too low. -/
def validateToken (prims : AuthPrims N) (now : Int) (auth : AuthPayload N) : Option Bool :=
  if !truthy prims.js auth.pubkey || !truthy prims.js auth.timestamp ||
      !truthy prims.js auth.token then some false
  else
    match auth.pubkey, auth.timestamp with
    | some (.str pubkey), some timestamp =>
      if isRevokedSigningKey pubkey then some false
      else
        match numeric prims.js timestamp with
        | none => none
        | some .nan => some true
        | some .infinite => some false
        | some (.finite t) =>
          let age := now - t
          some !(age > prims.tokenMaxAgeMs || age < -prims.tokenMaxAgeMs)
    | _, _ => some false

/-- `buildAuthMessage`. -/
def buildAuthMessage (js : Js N) (pubkey : String) (timestamp : Json N) (method path : String)
    (nonce : Option (Json N)) : Option Bytes := do
  let timestampText ← interpolate js timestamp
  let base := s!"{Crypto.Auth.labelDeviceAuth}:{pubkey}:{timestampText}:{method}:{path}"
  match nonce with
  | some n =>
    if truthy js nonce then do
      let nonceText ← interpolate js n
      some (asBytes s!"{base}:{nonceText}")
    else some (asBytes base)
  | none => some (asBytes base)

/-- A payload that can be signed: its key and its token are texts. A token that is no text has no
`charCodeAt`, or no bytes, and is no signature. -/
structure SignedPayload (N : Type) where
  pubkey : String
  timestamp : Json N
  token : String
  nonce : Option (Json N)

def AuthPayload.signed? (auth : AuthPayload N) : Option (SignedPayload N) :=
  match auth.pubkey, auth.timestamp, auth.token with
  | some (.str pubkey), some timestamp, some (.str token) =>
    some ⟨pubkey, timestamp, token, auth.nonce⟩
  | _, _, _ => none

/-- The `try` block of `verifyAuthToken`. -/
def verifySignature (prims : AuthPrims N) (auth : SignedPayload N) (method path : String) :
    Option Bool := do
  let message ← buildAuthMessage prims.js auth.pubkey auth.timestamp method path auth.nonce
  let pubkeyBytes ← hexToBytes auth.pubkey
  let tokenBytes ← hexToBytes auth.token
  ed25519Verify prims.ed25519 pubkeyBytes message tokenBytes

/-- `verifyAuthToken`. -/
def verifyAuthToken (prims : AuthPrims N) (now : Int) (auth : AuthPayload N)
    (method path : String) : Option Bool := do
  let valid ← validateToken prims now auth
  if !valid then some false
  else if method = "" || path = "" then some false
  else some ((auth.signed?.bind fun s => verifySignature prims s method path).getD false)

/-- A row of `auth_nonces`. -/
structure NonceRow where
  nonceHash : String
  pubkey : String
  expiresAt : Int

/-- The table `auth_nonces`, with its primary key. -/
structure AuthNonces where
  rows : List NonceRow
  primaryKey : (rows.map NonceRow.nonceHash).Nodup

def AuthNonces.empty : AuthNonces := ⟨[], List.nodup_nil⟩

/-- `checkAndMarkAuthNonce`: the insert fails on an invalid date, and when the database does. -/
def checkAndMarkAuthNonce (nonces : AuthNonces) (dbFails : Bool) (nonceHash pubkey : String)
    (expiresAt : Option Int) : Option Bool × AuthNonces :=
  match expiresAt with
  | none => (none, nonces)
  | some t =>
    if dbFails then (none, nonces)
    else if h : nonceHash ∈ nonces.rows.map NonceRow.nonceHash then (some false, nonces)
    else (some true, ⟨⟨nonceHash, pubkey, t⟩ :: nonces.rows,
      List.nodup_cons.mpr ⟨h, nonces.primaryKey⟩⟩)

/-- The part of `cleanup` on this table. -/
def AuthNonces.cleanup (nonces : AuthNonces) (now : Int) : AuthNonces where
  rows := nonces.rows.filter fun row => !decide (row.expiresAt < now)
  primaryKey := nonces.primaryKey.sublist (List.filter_sublist.map _)

/-- `ServerSession`, as far as it is read. -/
structure ServerSession where
  pubkey : String
  newToken : Option String

/-- `User`, as far as it is read. -/
structure User where
  pubkey : String
  active : Bool
  deriving DecidableEq

/-- What the database answers the identity service during a request, `none` where that throws. -/
structure Identity where
  validateSession : String → Option ServerSession
  selectUser : String → Option (Option User)
  insertFails : Bool

/-- `getUserInternal`. -/
def getUserInternal (identity : Identity) (pubkey : String) : Option (Option User) :=
  if isRevokedSigningKey pubkey then some none else identity.selectUser pubkey

/-- What a request passes with. -/
structure Authenticated where
  pubkey : String
  user : User
  newSessionToken : Option String
  deriving DecidableEq

/-- `Request`: its `Authorization` header, method, and the path of its URL. -/
structure Request where
  authorization : Option String
  method : String
  pathname : String

/-- The user of an authenticated key, if there is one and it is active. -/
def lookUp (identity : Identity) (pubkey : String) (newSessionToken : Option String) :
    Option Authenticated :=
  match getUserInternal identity pubkey with
  | some (some user) => if user.active = false then none else some ⟨pubkey, user, newSessionToken⟩
  | _ => none

/-- `authenticateRequest` with a session. -/
def authenticateSession (identity : Identity) (sessionToken : String) : Option Authenticated :=
  match identity.validateSession sessionToken with
  | none => none
  | some session =>
    if isRevokedSigningKey session.pubkey then none
    else lookUp identity session.pubkey session.newToken

/-- `createHash('sha256').update(auth.token).digest('hex')`. -/
def nonceHash (prims : AuthPrims N) (auth : SignedPayload N) : String :=
  hexEncode (prims.sha256 (asBytes auth.token)).bytes

/-- The time of `new Date(auth.timestamp + TOKEN_MAX_AGE_MS)`. -/
def nonceExpiresAt (prims : AuthPrims N) (auth : SignedPayload N) : Option Int :=
  dateAfter prims.js auth.timestamp prims.tokenMaxAgeMs

/-- `authenticateRequest` after a signature was verified. -/
def authenticateSigned (prims : AuthPrims N) (identity : Identity) (auth : SignedPayload N)
    (nonces : AuthNonces) : Option Authenticated × AuthNonces :=
  match checkAndMarkAuthNonce nonces identity.insertFails (nonceHash prims auth) auth.pubkey
      (nonceExpiresAt prims auth) with
  | (some true, marked) => (lookUp identity auth.pubkey none, marked)
  | (_, unmarked) => (none, unmarked)

/-- `authenticateRequest` at `Date.now()`. A request does not pass on `null`, nor if this throws. -/
def authenticateRequest (prims : AuthPrims N) (now : Int) (identity : Identity)
    (request : Request) (nonces : AuthNonces) : Option Authenticated × AuthNonces :=
  match (parseSessionHeader request.authorization).filter (· ≠ "") with
  | some sessionToken => (authenticateSession identity sessionToken, nonces)
  | none =>
    match parseAuthHeader prims.js request.authorization with
    | none => (none, nonces)
    | some value =>
      if !truthy prims.js (some value) then (none, nonces)
      else
        let auth := AuthPayload.ofJson value
        match verifyAuthToken prims now auth request.method request.pathname, auth.signed? with
        | some true, some signed => authenticateSigned prims identity signed nonces
        | _, _ => (none, nonces)

/-! ## Signed messages -/

variable {prims : AuthPrims N}

theorem hexEncode_ne_empty {k : Nat} (bytes : U8Array (k + 1)) : hexEncode bytes.bytes ≠ "" := by
  intro h
  have hlen := length_asBytes_hexEncode bytes.bytes
  rw [h, U8Array.length_eq] at hlen
  exact absurd hlen.symm (Nat.succ_ne_zero _)

/-- What a verified token is. -/
theorem verifyAuthToken_true {now : Int} {auth : AuthPayload N}
    {method path : String} (h : verifyAuthToken prims now auth method path = some true) :
    validateToken prims now auth = some true ∧
      ∃ signed, auth.signed? = some signed ∧
        verifySignature prims signed method path = some true := by
  unfold verifyAuthToken at h
  obtain ⟨valid, hvalid, h⟩ := Option.bind_eq_some_iff.mp h
  split at h
  · cases h
  rename_i hfalse
  split at h
  · cases h
  have htrue : valid = true := by simpa using hfalse
  rw [htrue] at hvalid
  refine ⟨hvalid, ?_⟩
  cases hsigned : auth.signed? with
  | none =>
    rw [hsigned] at h
    cases h
  | some signed =>
    refine ⟨signed, rfl, ?_⟩
    rw [hsigned] at h
    cases hverify : verifySignature prims signed method path with
    | none => simp [hverify] at h
    | some b => simpa [hverify] using h

variable {signed : SignedPayload N}

/-- **A token whose timestamp is a number is fresh up to the time its nonce is kept for.** -/
theorem le_nonceExpiresAt {now : Int} {auth : AuthPayload N}
    (hsigned : auth.signed? = some signed)
    (hvalid : validateToken prims now auth = some true) {n : N} (hn : signed.timestamp = .num n)
    {expiresAt : Int} (h : nonceExpiresAt prims signed = some expiresAt) : now ≤ expiresAt := by
  unfold AuthPayload.signed? at hsigned
  split at hsigned
  · rename_i pubkey timestamp token hpubkey htimestamp htoken
    cases hsigned
    cases hn
    unfold nonceExpiresAt dateAfter at h
    unfold validateToken at hvalid
    rw [hpubkey, htimestamp] at hvalid
    split at hvalid
    · cases hvalid
    dsimp only at hvalid h
    split at hvalid
    · cases hvalid
    cases hq : prims.js.value n with
    | infinite => simp [hq] at h
    | nan => simp [hq] at h
    | finite q =>
      simp only [hq] at h
      simp [numeric, hq] at hvalid
      have hle : (now : ℚ) ≤ q + prims.tokenMaxAgeMs := by linarith [hvalid.1]
      exact (Int.le_floor.mpr hle).trans (floor_le_timeClip h)
  · cases hsigned

/-! ## Runs -/

/-- A request reaches the table of nonces, or this is cleaned up. Requests may interleave: an
event stands where the request inserts its nonce, and `now` is when it read the clock. -/
inductive Event where
  | request (now : Int) (identity : Identity) (request : Request)
  | cleanup (now : Int)

/-- A signature that is presented, however it is spelled. -/
structure SignatureUse (N : Type) where
  pubkey : Bytes
  timestamp : Json N
  signature : Bytes
  nonce : Option (Json N)

def SignedPayload.use (auth : SignedPayload N) : Option (SignatureUse N) := do
  let pubkey ← hexToBytes auth.pubkey
  let signature ← hexToBytes auth.token
  some ⟨pubkey, auth.timestamp, signature, auth.nonce⟩

namespace Event

/-- The signed payload of a request's header. -/
def signed? (js : Js N) : Event → Option (SignedPayload N)
  | request _ _ r =>
    (parseAuthHeader js r.authorization).bind fun value => (AuthPayload.ofJson value).signed?
  | cleanup _ => none

/-- The signature that is presented. -/
def use? (js : Js N) (e : Event) : Option (SignatureUse N) := (e.signed? js).bind (·.use)

/-- When a request reads the clock. -/
def askedAt : Event → Option Int
  | request now _ _ => some now
  | cleanup _ => none

/-- When the table is cleaned up. -/
def cleanedAt : Event → Option Int
  | request _ _ _ => none
  | cleanup now => some now

end Event

/-- The signatures that let a request pass, in a run that starts with these nonces. -/
def passedUses (prims : AuthPrims N) : AuthNonces → List Event → List (SignatureUse N)
  | _, [] => []
  | nonces, .cleanup now :: events => passedUses prims (nonces.cleanup now) events
  | nonces, .request now identity r :: events =>
    match authenticateRequest prims now identity r nonces with
    | (some _, nonces') =>
      (Event.use? prims.js (.request now identity r)).toList ++ passedUses prims nonces' events
    | (none, nonces') => passedUses prims nonces' events

/-! ## Refinement of the replay guard -/

/-- The rows of the table, for the guard. -/
def AuthNonces.marks (nonces : AuthNonces) : List (String × Int) :=
  nonces.rows.map fun row => (row.nonceHash, row.expiresAt)

/-- The guard's step at an event: a verified token is presented to it, if a row can be written. -/
def guardStep (prims : AuthPrims N) : Event → Option (ReplayGuard.Step (SignatureUse N) String Int)
  | .cleanup now => some (.clean now)
  | .request now identity r => do
    let value ← parseAuthHeader prims.js r.authorization
    let auth := AuthPayload.ofJson value
    let signed ← auth.signed?
    let use ← signed.use
    let expiresAt ← nonceExpiresAt prims signed
    if verifyAuthToken prims now auth r.method r.pathname = some true ∧
        identity.insertFails = false then
      some (.present use (nonceHash prims signed) expiresAt)
    else none

theorem marks_fst (nonces : AuthNonces) :
    nonces.marks.map Prod.fst = nonces.rows.map NonceRow.nonceHash := by
  rw [AuthNonces.marks, List.map_map]
  rfl

theorem marks_cleanup (nonces : AuthNonces) (now : Int) :
    (nonces.cleanup now).marks = nonces.marks.filter fun row => !decide (row.2 < now) := by
  rw [AuthNonces.marks, AuthNonces.marks, List.filter_map]
  rfl

/-- A header with a session holds no token. -/
theorem parseAuthHeader_of_session {js : Js N} {header : Option String} {session : String}
    (h : parseSessionHeader header = some session) : parseAuthHeader js header = none := by
  unfold parseSessionHeader at h
  unfold parseAuthHeader
  cases header with
  | none => rfl
  | some text =>
    obtain ⟨rest, hrest, -⟩ := Option.map_eq_some_iff.mp h
    have hnone : after "Bearer " text = none :=
      after_eq_none hrest (by decide) (by decide)
    rw [Option.bind_some, hnone]
    rfl

/-- A signature that verified can be told from its bytes. -/
theorem use_of_verifySignature
    {method path : String} (h : verifySignature prims signed method path = some true) :
    ∃ use, signed.use = some use := by
  unfold verifySignature at h
  obtain ⟨message, -, h⟩ := Option.bind_eq_some_iff.mp h
  obtain ⟨pubkey, hpubkey, h⟩ := Option.bind_eq_some_iff.mp h
  obtain ⟨signature, hsignature, -⟩ := Option.bind_eq_some_iff.mp h
  exact ⟨⟨pubkey, signed.timestamp, signature, signed.nonce⟩, by
    simp [SignedPayload.use, hpubkey, hsignature]⟩

theorem use_timestamp {auth : SignedPayload N} {use : SignatureUse N} (h : auth.use = some use) :
    use.timestamp = auth.timestamp := by
  unfold SignedPayload.use at h
  obtain ⟨pubkey, -, h⟩ := Option.bind_eq_some_iff.mp h
  obtain ⟨signature, -, h⟩ := Option.bind_eq_some_iff.mp h
  cases h
  rfl

/-- A value with properties is not falsy. -/
theorem truthy_of_signed {js : Js N} {value : Json N}
    (h : (AuthPayload.ofJson value).signed? = some signed) : truthy js (some value) = true := by
  cases value with
  | arr _ | obj _ => rfl
  | _ => cases h

variable {identity : Identity}

/-- Without a row to write, a verified request does not pass. -/
theorem authenticateSigned_no_row
    {nonces : AuthNonces}
    (h : nonceExpiresAt prims signed = none ∨ identity.insertFails = true) :
    authenticateSigned prims identity signed nonces = (none, nonces) := by
  unfold authenticateSigned checkAndMarkAuthNonce
  rcases h with h | h
  · rw [h]
  · cases nonceExpiresAt prims signed <;> simp [h]

/-- A verified request is refused if its mark is there, and leaves its mark if it was not. -/
theorem authenticateSigned_row
    {nonces : AuthNonces} {expiresAt : Int}
    (hexpires : nonceExpiresAt prims signed = some expiresAt)
    (hfails : identity.insertFails = false) :
    (nonceHash prims signed ∈ nonces.marks.map Prod.fst →
      authenticateSigned prims identity signed nonces = (none, nonces)) ∧
    (nonceHash prims signed ∉ nonces.marks.map Prod.fst →
      (authenticateSigned prims identity signed nonces).2.marks =
        (nonceHash prims signed, expiresAt) :: nonces.marks) := by
  unfold authenticateSigned checkAndMarkAuthNonce
  rw [marks_fst, hexpires, hfails]
  constructor
  · intro hmem
    simp [hmem]
  · intro hmem
    simp [hmem, AuthNonces.marks]

/-- A request that is no step of the guard writes nothing, and no signature lets it pass. -/
theorem authenticateRequest_of_guardStep_none {now : Int}
    {r : Request} (h : guardStep prims (.request now identity r) = none)
    (nonces : AuthNonces) :
    (authenticateRequest prims now identity r nonces).2 = nonces ∧
      ((authenticateRequest prims now identity r nonces).1 = none ∨
        Event.use? prims.js (.request now identity r) = none) := by
  unfold authenticateRequest
  split
  · rename_i session hsession
    obtain ⟨hheader, -⟩ := Option.filter_eq_some_iff.mp hsession
    refine ⟨rfl, .inr ?_⟩
    simp [Event.use?, Event.signed?, parseAuthHeader_of_session hheader]
  split
  · exact ⟨rfl, .inl rfl⟩
  rename_i value hvalue
  split
  · exact ⟨rfl, .inl rfl⟩
  dsimp only
  split
  · rename_i signed htrue hsigned
    obtain ⟨-, signed', hsigned', hverify⟩ := verifyAuthToken_true htrue
    rw [hsigned] at hsigned'
    cases hsigned'
    obtain ⟨use, huse⟩ := use_of_verifySignature hverify
    have hrow : nonceExpiresAt prims signed = none ∨ identity.insertFails = true := by
      cases hexpires : nonceExpiresAt prims signed with
      | none => exact .inl rfl
      | some expiresAt =>
        refine .inr ?_
        simpa [guardStep, hvalue, hsigned, huse, hexpires, htrue] using h
    rw [authenticateSigned_no_row hrow]
    exact ⟨rfl, .inl rfl⟩
  · exact ⟨rfl, .inl rfl⟩

/-- What a step of the guard stands for. -/
theorem guardStep_present {now : Int} {r : Request}
    {s : ReplayGuard.Step (SignatureUse N) String Int}
    (h : guardStep prims (.request now identity r) = some s) :
    ∃ value signed use expiresAt, parseAuthHeader prims.js r.authorization = some value ∧
      (AuthPayload.ofJson value).signed? = some signed ∧ signed.use = some use ∧
      nonceExpiresAt prims signed = some expiresAt ∧
      verifyAuthToken prims now (AuthPayload.ofJson value) r.method r.pathname = some true ∧
      identity.insertFails = false ∧ s = .present use (nonceHash prims signed) expiresAt := by
  unfold guardStep at h
  obtain ⟨value, hvalue, h⟩ := Option.bind_eq_some_iff.mp h
  obtain ⟨signed, hsigned, h⟩ := Option.bind_eq_some_iff.mp h
  obtain ⟨use, huse, h⟩ := Option.bind_eq_some_iff.mp h
  obtain ⟨expiresAt, hexpires, h⟩ := Option.bind_eq_some_iff.mp h
  split at h
  · rename_i hverified
    exact ⟨value, signed, use, expiresAt, hvalue, hsigned, huse, hexpires, hverified.1,
      hverified.2, (Option.some.inj h).symm⟩
  · cases h

/-- A request that is a step of the guard goes by its mark. -/
theorem authenticateRequest_of_guardStep_some {now : Int}
    {r : Request} {s : ReplayGuard.Step (SignatureUse N) String Int}
    (h : guardStep prims (.request now identity r) = some s) (nonces : AuthNonces) :
    ∃ use mark expiresAt, s = .present use mark expiresAt ∧
      Event.use? prims.js (.request now identity r) = some use ∧
      (mark ∈ nonces.marks.map Prod.fst →
        authenticateRequest prims now identity r nonces = (none, nonces)) ∧
      (mark ∉ nonces.marks.map Prod.fst →
        (authenticateRequest prims now identity r nonces).2.marks =
          (mark, expiresAt) :: nonces.marks) := by
  obtain ⟨value, signed, use, expiresAt, hvalue, hsigned, huse, hexpires, htrue, hfails, rfl⟩ :=
    guardStep_present h
  have hsession : parseSessionHeader r.authorization = none := by
    cases hheader : parseSessionHeader r.authorization with
    | none => rfl
    | some session => simp [parseAuthHeader_of_session hheader] at hvalue
  have hrun : authenticateRequest prims now identity r nonces =
      authenticateSigned prims identity signed nonces := by
    simp [authenticateRequest, hsession, hvalue, truthy_of_signed hsigned, htrue, hsigned]
  refine ⟨use, _, expiresAt, rfl, ?_, ?_⟩
  · simp [Event.use?, Event.signed?, hvalue, hsigned, huse]
  · rw [hrun]
    exact authenticateSigned_row hexpires hfails

/-- **The server's runs are runs of the guard**: a signature that lets a request pass, passes the
guard. -/
theorem passedUses_sublist (prims : AuthPrims N) (nonces : AuthNonces) (events : List Event) :
    (passedUses prims nonces events).Sublist
      (ReplayGuard.passed nonces.marks (events.filterMap (guardStep prims))) := by
  induction events generalizing nonces with
  | nil => exact List.Sublist.slnil
  | cons e events ih =>
    cases e with
    | cleanup now =>
      have hstep : guardStep prims (.cleanup now) = some (.clean now) := rfl
      rw [passedUses, List.filterMap_cons_some hstep, ReplayGuard.passed, ← marks_cleanup]
      exact ih _
    | request now identity r =>
      cases hstep : guardStep prims (.request now identity r) with
      | none =>
        obtain ⟨hsame, hnone⟩ := authenticateRequest_of_guardStep_none hstep nonces
        rw [List.filterMap_cons_none hstep, passedUses]
        split
        · rename_i nonces' hauth
          rw [hauth] at hsame hnone
          have hsame : nonces' = nonces := hsame
          rcases hnone with hnone | hnone
          · cases hnone
          · rw [hnone, Option.toList_none, List.nil_append, hsame]
            exact ih nonces
        · rename_i nonces' hauth
          rw [hauth] at hsame
          have hsame : nonces' = nonces := hsame
          rw [hsame]
          exact ih nonces
      | some s =>
        obtain ⟨use, mark, expiresAt, rfl, huse, hin, hout⟩ :=
          authenticateRequest_of_guardStep_some hstep nonces
        rw [List.filterMap_cons_some hstep, passedUses, ReplayGuard.passed]
        by_cases hmem : mark ∈ nonces.marks.map Prod.fst
        · rw [if_pos hmem, hin hmem]
          exact ih nonces
        · have hmarks := hout hmem
          rw [if_neg hmem]
          split
          · rename_i hauth
            rw [hauth] at hmarks
            rw [huse, Option.toList_some, List.singleton_append, ← hmarks]
            exact (ih _).cons_cons use
          · rename_i hauth
            rw [hauth] at hmarks
            rw [← hmarks]
            exact (ih _).cons use

/-! ## One request for a signature -/

/-- For a request with a fresh token, the expiry of the row that it leaves. -/
def Event.freshUntil? (prims : AuthPrims N) : Event → Option Int
  | .request now _ r => do
    let value ← parseAuthHeader prims.js r.authorization
    let auth := AuthPayload.ofJson value
    if validateToken prims now auth = some true then auth.signed?.bind (nonceExpiresAt prims)
    else none
  | .cleanup _ => none

/-- Two requests that present one signature spell its token alike. -/
def SpelledAlike (js : Js N) (e e' : Event) : Prop :=
  ∀ auth auth', e.signed? js = some auth → e'.signed? js = some auth' →
    ∀ use, auth.use = some use → auth'.use = some use → auth.token = auth'.token

/-- A run in which a signature is always spelled the same way, and in which no token is found fresh
after a cleanup past the expiry of its row. -/
structure Orderly (prims : AuthPrims N) (events : List Event) : Prop where
  spelled : events.Pairwise (SpelledAlike prims.js)
  kept : events.Pairwise fun e e' => ∀ t expiresAt, e.cleanedAt = some t →
    e'.freshUntil? prims = some expiresAt → t ≤ expiresAt

/-- **With numbers as timestamps, and no request that reads the clock before a cleanup it comes
after, no token is found fresh past its expiry.** -/
theorem Orderly.of_numbers {events : List Event}
    (hspelled : events.Pairwise (SpelledAlike prims.js))
    (hnumbers : ∀ e ∈ events, ∀ auth, e.signed? prims.js = some auth →
      ∃ n, auth.timestamp = .num n)
    (hclocked : events.Pairwise fun e e' => ∀ t t', e.cleanedAt = some t →
      e'.askedAt = some t' → t ≤ t') : Orderly prims events := by
  refine ⟨hspelled, hclocked.imp_of_mem ?_⟩
  intro e e' _ he' hclock t expiresAt ht hfresh
  cases e' with
  | cleanup now => cases hfresh
  | request now identity r =>
    obtain ⟨value, hvalue, hfresh⟩ := Option.bind_eq_some_iff.mp hfresh
    dsimp only at hfresh
    split at hfresh
    · rename_i hvalid
      obtain ⟨signed, hsigned, hexpires⟩ := Option.bind_eq_some_iff.mp hfresh
      obtain ⟨n, hn⟩ := hnumbers _ he' signed (by simp [Event.signed?, hvalue, hsigned])
      exact (hclock t now ht rfl).trans (le_nonceExpiresAt hsigned hvalid hn hexpires)
    · cases hfresh

theorem guardStep_compatible {events : List Event}
    (h : Orderly prims events) :
    (events.filterMap (guardStep prims)).Pairwise ReplayGuard.Compatible := by
  refine List.pairwise_filterMap.mpr ((h.spelled.and h.kept).imp ?_)
  rintro e e' ⟨hspelled, hkept⟩ s hs s' hs'
  cases e' with
  | cleanup now' =>
    cases hs'
    cases s <;> trivial
  | request now' identity' r' =>
    obtain ⟨value', signed', use', expiresAt', hvalue', hsigned', huse', hexpires', htrue', -,
      rfl⟩ := guardStep_present hs'
    cases e with
    | cleanup now =>
      cases hs
      refine hkept now expiresAt' rfl ?_
      simp [Event.freshUntil?, hvalue', (verifyAuthToken_true htrue').1, hsigned', hexpires']
    | request now identity r =>
      obtain ⟨value, signed, use, expiresAt, hvalue, hsigned, huse, hexpires, -, -, rfl⟩ :=
        guardStep_present hs
      rintro rfl
      have htoken : signed.token = signed'.token := by
        refine hspelled signed signed' ?_ ?_ use huse huse'
        · simp [Event.signed?, hvalue, hsigned]
        · simp [Event.signed?, hvalue', hsigned']
      have htimestamp : signed.timestamp = signed'.timestamp := by
        rw [← use_timestamp huse, ← use_timestamp huse']
      refine ⟨by rw [nonceHash, nonceHash, htoken], ?_⟩
      rw [nonceExpiresAt, htimestamp, ← nonceExpiresAt, hexpires'] at hexpires
      exact (Option.some.inj hexpires).symm

/-- The token for `nonceGiven`, and the same digits in upper case. -/
def sampleToken : String := Crypto.Auth.nonceSignature
def sampleTokenUpper : String :=
  "EC9E0CF9408388438E76B8A16FFACE89098CD594654AD7AB4B1C7E4E3CF5BB23" ++
    "6000A2293A92716E15048980521F68116A51642F7DF883DFDD3BF33A9468130B"

def samplePubkey : String := Crypto.Auth.nonceGiven.pubkeyHex
def sampleNonce : String := "00112233445566778899aabbccddeeff"

/-- The token of a request as JSON, and its text. -/
def sampleJson (token : String) : Json Int :=
  .obj [("pubkey", .str samplePubkey), ("timestamp", .num 1767225600000), ("token", .str token),
    ("nonce", .str sampleNonce)]
def sampleText (token : String) : String :=
  "\x7b\"pubkey\":\"" ++ samplePubkey ++ "\",\"timestamp\":1767225600000,\"token\":\"" ++ token ++
    "\",\"nonce\":\"" ++ sampleNonce ++ "\"\x7d"

/-- `JSON.parse`, SHA-256 and Ed25519 on the two tokens, and an age limit of five minutes. -/
def samplePrims : AuthPrims Int where
  js := integerJs fun text =>
    if text = sampleText sampleToken then some (sampleJson sampleToken)
    else if text = sampleText sampleTokenUpper then some (sampleJson sampleTokenUpper)
    else none
  sha256 bytes :=
    if bytes = asBytes sampleToken then
      U8Array.ofHex 32 "6255f3e3bd2575850da6bc749791c22f74ed63cae338b08a8d7d58dcaaebb800"
    else if bytes = asBytes sampleTokenUpper then
      U8Array.ofHex 32 "688a08028b154a2d630099342525836c54d67b82d0b99adf26162349a27d92fb"
    else U8Array.ofHex 32 ""
  ed25519 := Crypto.Auth.nonceEd25519
  tokenMaxAgeMs := 300000

/-- A database with every user, and no session. -/
def sampleIdentity : Identity where
  validateSession _ := none
  selectUser pubkey := some (some ⟨pubkey, true⟩)
  insertFails := false

def sampleRequest (now : Int) (token : String) : Event :=
  .request now sampleIdentity ⟨some ("Bearer " ++ sampleText token), "GET", "/api/notes"⟩

/-- The signature that both tokens spell. -/
def sampleUse : SignatureUse Int where
  pubkey := (U8Array.ofHex 32 samplePubkey).bytes
  timestamp := .num 1767225600000
  signature := (U8Array.ofHex 64 sampleToken).bytes
  nonce := some (.str sampleNonce)

/-- The payload of a sample token. -/
def sampleSigned (token : String) : SignedPayload Int :=
  ⟨samplePubkey, .num 1767225600000, token, some (.str sampleNonce)⟩

theorem sample_parseAuthHeader {token : String}
    (hparse : samplePrims.js.parse (sampleText token) = some (sampleJson token)) :
    parseAuthHeader samplePrims.js (some ("Bearer " ++ sampleText token)) =
      some (sampleJson token) := by
  rw [parseAuthHeader, Option.bind_some, after_append, Option.bind_some, hparse]

theorem sample_signed {token : String} (now : Int)
    (hparse : samplePrims.js.parse (sampleText token) = some (sampleJson token)) :
    (sampleRequest now token).signed? samplePrims.js = some (sampleSigned token) := by
  rw [sampleRequest, Event.signed?, sample_parseAuthHeader hparse]
  rfl

theorem sample_use {token : String} (hbytes : hexDecode token = .ok sampleUse.signature) :
    (sampleSigned token).use = some sampleUse := by
  have hkey : hexToBytes samplePubkey = some sampleUse.pubkey :=
    hexToBytes_eq_some.mpr (by decide +kernel)
  have htoken : hexToBytes (sampleSigned token).token = some sampleUse.signature :=
    hexToBytes_eq_some.mpr hbytes
  have hpubkey : (sampleSigned token).pubkey = samplePubkey := rfl
  rw [SignedPayload.use, hpubkey, hkey, htoken]
  rfl

/-- A sample request passes, if its digest is not marked. -/
theorem sample_passes (now : Int) (token : String) (nonces : AuthNonces)
    (hparse : samplePrims.js.parse (sampleText token) = some (sampleJson token))
    (hverified : verifyAuthToken samplePrims now (.ofJson (sampleJson token)) "GET" "/api/notes" =
      some true)
    (hbytes : hexDecode token = .ok sampleUse.signature)
    (hmark : nonceHash samplePrims (sampleSigned token) ∉ nonces.marks.map Prod.fst) :
    ∃ nonces', nonces'.marks =
        (nonceHash samplePrims (sampleSigned token), 1767225900000) :: nonces.marks ∧
      ∀ events, passedUses samplePrims nonces (sampleRequest now token :: events) =
        sampleUse :: passedUses samplePrims nonces' events := by
  have hexpires : nonceExpiresAt samplePrims (sampleSigned token) = some 1767225900000 := by
    show timeClip ((1767225600000 : Int) + 300000) = some 1767225900000
    decide +kernel
  have hsession : parseSessionHeader (some ("Bearer " ++ sampleText token)) = none := by
    rw [parseSessionHeader, Option.bind_some,
      after_eq_none (after_append "Bearer " (sampleText token)) (by decide) (by decide)]
    rfl
  have hpayload : (AuthPayload.ofJson (sampleJson token)).signed? = some (sampleSigned token) := rfl
  have hrun : authenticateRequest samplePrims now sampleIdentity
      ⟨some ("Bearer " ++ sampleText token), "GET", "/api/notes"⟩ nonces =
        authenticateSigned samplePrims sampleIdentity (sampleSigned token) nonces := by
    simp [authenticateRequest, hsession, sample_parseAuthHeader hparse, truthy_of_signed hpayload,
      hverified, hpayload]
  have hactive : lookUp sampleIdentity (sampleSigned token).pubkey none =
      some ⟨samplePubkey, ⟨samplePubkey, true⟩, none⟩ := by
    show lookUp sampleIdentity samplePubkey none = _
    decide +kernel
  have hfails : sampleIdentity.insertFails = false := rfl
  have hpasses : (authenticateSigned samplePrims sampleIdentity (sampleSigned token) nonces).1 =
      some ⟨samplePubkey, ⟨samplePubkey, true⟩, none⟩ := by
    rw [marks_fst] at hmark
    unfold authenticateSigned checkAndMarkAuthNonce
    rw [hexpires]
    simpa [hmark, hfails] using hactive
  refine ⟨_, (authenticateSigned_row hexpires hfails).2 hmark, fun events => ?_⟩
  have huse : Event.use? samplePrims.js (sampleRequest now token) = some sampleUse := by
    rw [Event.use?, sample_signed now hparse, Option.bind_some, sample_use hbytes]
  rw [sampleRequest] at huse ⊢
  rw [passedUses, hrun, huse]
  cases hresult : authenticateSigned samplePrims sampleIdentity (sampleSigned token) nonces with
  | mk result nonces' =>
    rw [hresult] at hpasses
    cases hpasses
    rfl

/-- A request, a cleanup, and the request again. -/
def repeatedRun : List Event :=
  [sampleRequest 1767225601000 sampleToken, .cleanup 1767225602000,
    sampleRequest 1767225603000 sampleToken]

theorem sampleToken_parse :
    samplePrims.js.parse (sampleText sampleToken) = some (sampleJson sampleToken) := by
  simp only [samplePrims, integerJs, if_true]

theorem repeatedRun_orderly : Orderly samplePrims repeatedRun := by
  have hall : ∀ e ∈ repeatedRun, ∀ auth, e.signed? samplePrims.js = some auth →
      auth = sampleSigned sampleToken := by
    intro e he auth hauth
    simp only [repeatedRun, List.mem_cons, List.not_mem_nil, or_false] at he
    rcases he with rfl | rfl | rfl
    · rw [sample_signed _ sampleToken_parse] at hauth
      exact (Option.some.inj hauth).symm
    · cases hauth
    · rw [sample_signed _ sampleToken_parse] at hauth
      exact (Option.some.inj hauth).symm
  refine .of_numbers ?_ (fun e he auth hauth => ⟨1767225600000, ?_⟩) ?_
  · refine List.pairwise_of_forall_mem_list fun e he e' he' auth auth' hauth hauth' _ _ _ => ?_
    rw [hall e he auth hauth, hall e' he' auth' hauth']
  · rw [hall e he auth hauth]
    rfl
  · simp [repeatedRun, sampleRequest, Event.cleanedAt, Event.askedAt]

/-- Two requests a second apart, the second token in upper case. -/
def respelledRun : List Event :=
  [sampleRequest 1767225601000 sampleToken, sampleRequest 1767225602000 sampleTokenUpper]

end Llamenos.Worker.Auth

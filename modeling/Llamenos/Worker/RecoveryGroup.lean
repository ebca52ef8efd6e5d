import Llamenos.Lib.Runs
import Llamenos.Worker.CryptoKeys
import Mathlib.Data.Finset.Card

/-!
# The recovery group service

`RecoveryGroupService` of `apps/worker/services/recovery-group.ts`, over the tables of
`apps/worker/db/schema/recovery.ts`: a hub's recovery group, its share holders, the users' wrapped
envelopes, and the recovery sessions with their contributions.

Every operation on a session reads its row first (`call`), and goes on from what it has read, one
statement after the other (`resume`), while others do the same. What a transaction writes is there
when it commits, and what it has read before may be out of date by then. A statement that the
database fails is one that is never resumed.

A run is any interleaving of the statements of any number of calls, with new sessions, and
replaced groups and envelopes in between.

Results:
* `resume_resumed`: **what a statement writes to a session**: nothing, a failed attempt, or the
  status that it stores.
* `step_sessionState`: so a step leaves a session its hub, and its status or the one that is stored.
-/

namespace Llamenos.Worker.RecoveryGroup

open Llamenos.Lib Llamenos.Crypto Llamenos.Worker.CryptoKeys

/-- What the service is built on: that of the sigchains, and the hexadecimal
`createHmac('sha256', secret).update(text).digest('hex')`. -/
structure RecoveryPrims (N : Type) where
  keys : CryptoKeysPrims N
  hmac : String → String → String

variable {N : Type}

/-! ## The tables -/

inductive SessionStatus where
  | pending
  | verified
  | active
  | completed
  | expired
  | cancelled
  deriving DecidableEq

structure EmergencyOverride where
  justification : String
  approverPubkey : String
  approverSignature : String

/-- A row of `recovery_sessions`, without its `session_id`. -/
structure Session where
  hubId : String
  userPubkey : String
  newDevicePubkey : String
  signalVerified : Bool := false
  status : SessionStatus := .pending
  verificationCodeHash : Option String
  verificationAttempts : Nat := 0
  expiresAt : Int
  completedAt : Option Int := none
  cancelledAt : Option Int := none
  cancelledBy : Option String := none
  emergencyOverride : Option EmergencyOverride := none
  createdAt : Int

/-- A row of `recovery_session_contributions`, without its `session_id`. -/
structure Contribution where
  contributorPubkey : String
  encryptedShare : String
  contributorSignature : String
  contributedAt : Int

/-- A row of `hub_recovery_groups`, without its `hub_id`. -/
structure Group where
  groupPublicKey : String
  threshold : Nat
  totalShares : Nat
  shareCommitments : List String
  duressCommitments : Option (List (Option String))
  sigchainLinkHash : String
  delayHours : Nat
  emergencyFloorHours : Nat
  rotatedAt : Option Int

/-- A row of `hub_recovery_group_shares`, without its `hub_id`. -/
structure Share where
  holderPubkey : String
  shareEnvelope : String

/-- The tables: groups, shares and envelopes by hub, sessions and contributions by session. -/
structure Db (N : Type) where
  groups : String → Option Group := fun _ => none
  shares : String → List Share := fun _ => []
  userEnvelopes : String → List (String × String) := fun _ => []
  sessions : String → Option Session := fun _ => none
  contributions : String → List Contribution := fun _ => []
  sigchainLinks : List (SigchainRow N) := []

/-- `RecoveryGroupError`, or an error of the database. -/
inductive RecoveryError where
  | recoveryGroup (message : String) (status : Nat)
  | database

/-- `UPDATE recovery_sessions SET … WHERE session_id = …`. -/
def updateSession (db : Db N) (sessionId : String) (set : Session → Session) : Db N :=
  { db with
    sessions := Function.update db.sessions sessionId ((db.sessions sessionId).map set) }

def HOUR_MS : Int := 60 * 60 * 1000

def MAX_VERIFICATION_ATTEMPTS : Nat := 5

/-- `group[0]?.threshold ?? 2`. -/
def thresholdOf (db : Db N) (hubId : String) : Nat := (db.groups hubId).elim 2 Group.threshold

/-! ## Calls and their statements -/

structure ContributeParams where
  sessionId : String
  contributorPubkey : String
  encryptedShare : String
  contributorSignature : String

structure CompleteParams (N : Type) where
  sessionId : String
  sigchainSeqNo : Nat
  sigchainPayload : Json N
  signature : String
  prevHash : String
  hash : String
  signerDeviceId : String
  timestamp : String

structure OverrideParams where
  sessionId : String
  approverPubkey : String
  justification : String
  signature : String

/-- A call on a session. -/
inductive Op (N : Type) where
  | verifyInitiation (sessionId verificationCode hmacSecret : String)
  | contributeShare (params : ContributeParams)
  | getSession (sessionId : String)
  | cancelSession (sessionId cancelledBy callerPubkey : String) (hasManagePermission : Bool)
  | completeRecovery (params : CompleteParams N)
  | getUserEnvelope (sessionId hubId : String)
  | applyEmergencyOverride (params : OverrideParams)

def Op.sessionId : Op N → String
  | .verifyInitiation sessionId _ _ => sessionId
  | .contributeShare params => params.sessionId
  | .getSession sessionId => sessionId
  | .cancelSession sessionId _ _ _ => sessionId
  | .completeRecovery params => params.sessionId
  | .getUserEnvelope sessionId _ => sessionId
  | .applyEmergencyOverride params => params.sessionId

/-- The next statement of a call, with what the call has read before. -/
inductive Task (N : Type) where
  | verifyExpire (sessionId message : String)
  | verifyAttempt (sessionId : String) (verificationAttempts : Nat)
  | verifyGroup (sessionId : String) (session : Session)
  | verifyStore (sessionId : String) (expiresAt : Int)
  | contributeHolders (params : ContributeParams) (session : Session)
  | contributeExisting (params : ContributeParams) (session : Session)
  | contributeCount (params : ContributeParams) (session : Session)
  | contributeGroup (params : ContributeParams) (session : Session) (contributionCount : Nat)
  | contributeCommit (params : ContributeParams) (session : Session)
      (contributionCount threshold : Nat)
  | sessionContributions (sessionId : String) (session : Session)
  | sessionGroup (sessionId : String) (session : Session) (contributions : List Contribution)
  | cancelStore (sessionId cancelledBy : String) (cancelledAt : Int)
  | completeContributions (params : CompleteParams N) (session : Session)
  | completeGroup (params : CompleteParams N) (session : Session) (contributors : List String)
  | completeCommit (params : CompleteParams N) (session : Session)
  | selectEnvelope (sessionId hubId : String) (session : Session)
  | overrideGroup (params : OverrideParams) (session : Session)
  | overrideStore (params : OverrideParams) (expiresAt : Int)

/-- A contribution as `getSession` shows it. -/
structure ContributionView where
  contributorPubkey : String
  encryptedShare : Option String
  contributorSignature : Option String
  contributedAt : Int

/-- What `getSession` returns: the row's fields, and these. -/
structure SessionView where
  session : Session
  contributionCount : Nat
  threshold : Nat
  delayRemainingMs : Int
  contributions : List ContributionView

inductive Reply (N : Type) where
  | verified (expiresAt : Int)
  | contributed (status : SessionStatus) (contributionCount : Nat)
  | session (view : SessionView)
  | cancelled
  | completed (sigchainLink : SigchainRow N)
  | envelope (envelope : Option String)
  | overridden

/-- A call goes on, or is over. -/
inductive Progress (N : Type) where
  | more (task : Task N)
  | done (reply : Except RecoveryError (Reply N))

/-- `throw new RecoveryGroupError(message, status)`. -/
def throws (message : String) (status : Nat) : Progress N :=
  .done (.error (.recoveryGroup message status))

def SessionStatus.text : SessionStatus → String
  | .pending => "pending"
  | .verified => "verified"
  | .active => "active"
  | .completed => "completed"
  | .expired => "expired"
  | .cancelled => "cancelled"

/-! ## After the first read -/

def verifyInitiation (prims : RecoveryPrims N) (sessionId verificationCode hmacSecret : String)
    (session : Session) (now : Int) : Progress N :=
  if session.status ≠ .pending then throws "Session is not in pending state" 400
  else if session.expiresAt < now then .more (.verifyExpire sessionId "Session has expired")
  else if MAX_VERIFICATION_ATTEMPTS ≤ session.verificationAttempts then
    .more (.verifyExpire sessionId "Too many verification attempts — session expired")
  else if session.verificationCodeHash ≠ some (prims.hmac hmacSecret verificationCode) then
    .more (.verifyAttempt sessionId (session.verificationAttempts + 1))
  else .more (.verifyGroup sessionId session)

def contributeShare (params : ContributeParams) (session : Session) : Progress N :=
  if session.status ≠ .verified ∧ session.status ≠ .active then
    throws (s!"Session is in '{session.status.text}' state — " ++
      "contributions only accepted in 'verified' or 'active' state") 400
  else .more (.contributeHolders params session)

def cancelSession (sessionId cancelledBy callerPubkey : String) (hasManagePermission : Bool)
    (session : Session) (now : Int) : Progress N :=
  if session.status ∉ [.pending, .verified, .active] then
    throws s!"Cannot cancel session in '{session.status.text}' state" 400
  else if callerPubkey ≠ session.userPubkey ∧ hasManagePermission = false then
    throws "Only the recovering user or a recovery manager can cancel" 403
  else .more (.cancelStore sessionId cancelledBy now)

def completeRecovery (params : CompleteParams N) (session : Session) (now : Int) : Progress N :=
  if session.status ≠ .active then
    throws s!"Cannot complete session in '{session.status.text}' state" 400
  else if now < session.expiresAt then throws "Recovery delay period has not elapsed" 403
  else .more (.completeContributions params session)

def getUserEnvelope (sessionId hubId : String) (session : Session) (now : Int) : Progress N :=
  if session.hubId ≠ hubId then
    throws "Recovery envelope is not yet available for this session" 403
  else if session.expiresAt ≤ now ∧ (session.status = .active ∨ session.status = .completed) then
    .more (.selectEnvelope sessionId hubId session)
  else throws "Recovery envelope is not yet available for this session" 403

/-- The `try` block of `applyEmergencyOverride`. -/
def approverSigned (prims : RecoveryPrims N) (params : OverrideParams) : Bool :=
  match hexToBytes params.approverPubkey, hexToBytes params.signature with
  | some key, some signature =>
    (ed25519Verify prims.keys.ed25519 key (asBytes params.sessionId) signature).getD false
  | _, _ => false

def applyEmergencyOverride (prims : RecoveryPrims N) (params : OverrideParams)
    (session : Session) : Progress N :=
  if session.status ≠ .verified ∧ session.status ≠ .active then
    throws s!"Cannot apply emergency override to session in '{session.status.text}' state" 400
  else if params.approverPubkey = session.userPubkey then
    throws "Approver cannot be the recovering user" 403
  else if !approverSigned prims params then throws "Invalid approver signature" 403
  else .more (.overrideGroup params session)

/-- A call, with its `SELECT` of the session. -/
def call (prims : RecoveryPrims N) (db : Db N) (op : Op N) (now : Int) : Progress N :=
  match db.sessions op.sessionId with
  | none => throws "Session not found" 404
  | some session =>
    match op with
    | .verifyInitiation sessionId verificationCode hmacSecret =>
      verifyInitiation prims sessionId verificationCode hmacSecret session now
    | .contributeShare params => contributeShare params session
    | .getSession sessionId => .more (.sessionContributions sessionId session)
    | .cancelSession sessionId cancelledBy callerPubkey hasManagePermission =>
      cancelSession sessionId cancelledBy callerPubkey hasManagePermission session now
    | .completeRecovery params => completeRecovery params session now
    | .getUserEnvelope sessionId hubId => getUserEnvelope sessionId hubId session now
    | .applyEmergencyOverride params => applyEmergencyOverride prims params session

/-! ## The statements that follow -/

/-- Whether the contributor has contributed. -/
def contributed (db : Db N) (params : ContributeParams) : Bool :=
  (db.contributions params.sessionId).any (·.contributorPubkey = params.contributorPubkey)

/-- The commit of `contributeShare`: the insert, and the status. The primary key refuses a second
contribution. -/
def contributeCommit (db : Db N) (params : ContributeParams) (session : Session)
    (contributionCount threshold : Nat) (now : Int) : Option (Db N × SessionStatus) :=
  if contributed db params then none
  else
    let row : Contribution := ⟨params.contributorPubkey, params.encryptedShare,
      params.contributorSignature, now⟩
    let inserted : Db N := { db with
      contributions := Function.update db.contributions params.sessionId
        (db.contributions params.sessionId ++ [row]) }
    if threshold ≤ contributionCount ∧ session.status = .verified then
      some (updateSession inserted params.sessionId fun row => { row with status := .active },
        .active)
    else some (inserted, session.status)

/-- Whether the payload lists at least `threshold` contributors. -/
def evidenceHolds (contributors : List String) (threshold : Nat) : Option (Json N) → Bool
  | some (.arr evidence) => decide (threshold ≤ evidence.length) &&
      evidence.all fun pk => pk.asStr?.elim false fun key => contributors.contains key
  | _ => false

/-- The `try` block of `completeRecovery`. -/
def deviceSigned (prims : RecoveryPrims N) (params : CompleteParams N) (session : Session) : Bool :=
  match hexToBytes session.newDevicePubkey, hexToBytes params.hash,
      hexToBytes params.signature with
  | some key, some hash, some signature =>
    (ed25519Verify prims.keys.ed25519 key hash signature).getD false
  | _, _, _ => false

/-- `completeRecovery` between its reads and its transaction. -/
def checkCompletion (prims : RecoveryPrims N) (params : CompleteParams N) (session : Session)
    (contributors : List String) (threshold : Nat) : Progress N :=
  if contributors.length < threshold then throws "Threshold contributions not met" 400
  else if (params.sigchainPayload.get? "sessionId").bind Json.asStr? ≠ some params.sessionId then
    throws "Sigchain payload sessionId mismatch" 400
  else if !evidenceHolds contributors threshold
      (params.sigchainPayload.get? "contributingHolderPubkeys") then
    throws "Sigchain payload must list at least `threshold` verified contributing share holders"
      400
  else if !deviceSigned prims params session then
    throws "Invalid recovery-device-add signature" 403
  else .more (.completeCommit params session)

/-- The link that `completeRecovery` appends, signed by the new device. -/
def recoveryLink (params : CompleteParams N) (session : Session) : NewLink N where
  seqNo := params.sigchainSeqNo
  linkType := "recovery-device-add"
  payload := params.sigchainPayload
  signature := params.signature
  prevHash := params.prevHash
  hash := params.hash
  signerDeviceId := params.signerDeviceId
  signerPubkey := session.newDevicePubkey
  timestamp := params.timestamp

/-- The row that the transaction of `completeRecovery` inserts. -/
def recoveryRow (prims : RecoveryPrims N) (db : Db N) (params : CompleteParams N)
    (session : Session) (insert : Insert) : Except RecoveryError (SigchainRow N) :=
  let link := recoveryLink params session
  let head := currentHead (rowsOf db.sigchainLinks session.userPubkey)
  if link.seqNo ≠ expectedSeqNo head then
    .error (.recoveryGroup
      s!"sigchain sequence mismatch: expected {expectedSeqNo head}, got {link.seqNo}" 409)
  else if link.prevHash ≠ expectedPrevHash head then
    .error (.recoveryGroup "sigchain prevHash mismatch: does not match current chain head" 409)
  else if asBytes (recomputedHash prims.keys link) ≠ toLowerCase link.hash then
    .error (.recoveryGroup "sigchain hash mismatch: recomputed hash does not match claimed hash"
      400)
  else if insert.fails then .error .database
  else .ok { id := insert.id, userPubkey := session.userPubkey, seqNo := link.seqNo,
             linkType := link.linkType, payload := link.payload, signature := link.signature,
             prevHash := link.prevHash, hash := link.hash, signerDeviceId := link.signerDeviceId,
             signerPubkey := link.signerPubkey, linkTimestamp := link.timestamp,
             createdAt := insert.createdAt }

/-- The transaction of `completeRecovery`. -/
def completeCommit (prims : RecoveryPrims N) (db : Db N) (params : CompleteParams N)
    (session : Session) (insert : Insert) (now : Int) :
    Except RecoveryError (Db N × SigchainRow N) :=
  match recoveryRow prims db params session insert with
  | .error err => .error err
  | .ok row =>
    let inserted : Db N := { db with sigchainLinks := db.sigchainLinks ++ [row] }
    .ok (updateSession inserted params.sessionId fun row =>
      { row with status := .completed, completedAt := some now }, row)

/-- What `getSession` returns. -/
def sessionView (session : Session) (contributions : List Contribution) (threshold : Nat)
    (now : Int) : SessionView :=
  let delayRemainingMs := max 0 (session.expiresAt - now)
  let releaseContributions := decide (delayRemainingMs = 0) &&
    (session.status = .active || session.status = .completed)
  { session := session
    contributionCount := contributions.length
    threshold := threshold
    delayRemainingMs := delayRemainingMs
    contributions := contributions.map fun c =>
      ⟨c.contributorPubkey, if releaseContributions then some c.encryptedShare else none,
        if releaseContributions then some c.contributorSignature else none, c.contributedAt⟩ }

/-- A statement of a call, after its first: the tables after it, and how the call goes on. -/
def resume (prims : RecoveryPrims N) (db : Db N) (now : Int) (insert : Insert) :
    Task N → Db N × Progress N
  | .verifyExpire sessionId message =>
    (updateSession db sessionId fun row => { row with status := .expired }, throws message 400)
  | .verifyAttempt sessionId verificationAttempts =>
    (updateSession db sessionId fun row => { row with verificationAttempts },
      throws "Invalid verification code" 400)
  | .verifyGroup sessionId session =>
    let delayMs := (db.groups session.hubId).elim 24 Group.delayHours * HOUR_MS
    (db, .more (.verifyStore sessionId (now + delayMs)))
  | .verifyStore sessionId expiresAt =>
    (updateSession db sessionId fun row =>
      { row with status := .verified, signalVerified := true, expiresAt },
      .done (.ok (.verified expiresAt)))
  | .contributeHolders params session =>
    if (db.shares session.hubId).any (·.holderPubkey = params.contributorPubkey) then
      (db, .more (.contributeExisting params session))
    else (db, throws "Contributor is not a share holder for this hub" 403)
  | .contributeExisting params session =>
    if contributed db params then (db, throws "Duplicate contribution — already submitted" 409)
    else (db, .more (.contributeCount params session))
  | .contributeCount params session =>
    (db, .more (.contributeGroup params session ((db.contributions params.sessionId).length + 1)))
  | .contributeGroup params session contributionCount =>
    (db, .more (.contributeCommit params session contributionCount (thresholdOf db session.hubId)))
  | .contributeCommit params session contributionCount threshold =>
    match contributeCommit db params session contributionCount threshold now with
    | none => (db, .done (.error .database))
    | some (db, newStatus) => (db, .done (.ok (.contributed newStatus contributionCount)))
  | .sessionContributions sessionId session =>
    (db, .more (.sessionGroup sessionId session (db.contributions sessionId)))
  | .sessionGroup _ session contributions =>
    (db, .done (.ok (.session
      (sessionView session contributions (thresholdOf db session.hubId) now))))
  | .cancelStore sessionId cancelledBy cancelledAt =>
    (updateSession db sessionId fun row => { row with
      status := .cancelled, cancelledAt := some cancelledAt, cancelledBy := some cancelledBy },
      .done (.ok .cancelled))
  | .completeContributions params session =>
    (db, .more (.completeGroup params session
      ((db.contributions params.sessionId).map Contribution.contributorPubkey)))
  | .completeGroup params session contributors =>
    (db, checkCompletion prims params session contributors (thresholdOf db session.hubId))
  | .completeCommit params session =>
    match completeCommit prims db params session insert now with
    | .error err => (db, .done (.error err))
    | .ok (db, row) => (db, .done (.ok (.completed row)))
  | .selectEnvelope _ hubId session =>
    (db, .done (.ok (.envelope ((db.userEnvelopes hubId).lookup session.userPubkey))))
  | .overrideGroup params session =>
    let emergencyFloorHours := (db.groups session.hubId).elim 4 Group.emergencyFloorHours
    (db, .more (.overrideStore params (now + emergencyFloorHours * HOUR_MS)))
  | .overrideStore params expiresAt =>
    (updateSession db params.sessionId fun row => { row with
      status := .active
      signalVerified := true
      expiresAt
      emergencyOverride :=
        some ⟨params.justification, params.approverPubkey, params.signature⟩ },
      .done (.ok .overridden))

/-! ## Groups and envelopes -/

structure GroupParams where
  hubId : String
  threshold : Nat
  totalShares : Nat
  groupPublicKey : String
  shareEnvelopes : List Share
  shareCommitments : List String
  duressCommitments : Option (List (Option String)) := none
  sigchainLinkHash : String
  delayHours : Nat := 24
  emergencyFloorHours : Nat := 4

/-- The checks that `enrollHub` and `rotateGroup` begin with. -/
def checkGroup (params : GroupParams) : Except RecoveryError Unit :=
  if params.shareEnvelopes.length ≠ params.totalShares then
    .error (.recoveryGroup
      s!"Expected {params.totalShares} share envelopes, got {params.shareEnvelopes.length}" 400)
  else if params.shareCommitments.length ≠ params.totalShares then
    .error (.recoveryGroup
      s!"Expected {params.totalShares} share commitments, got {params.shareCommitments.length}"
      400)
  else if params.totalShares < params.threshold then
    .error (.recoveryGroup "Threshold cannot exceed totalShares" 400)
  else if params.delayHours < params.emergencyFloorHours then
    .error (.recoveryGroup "Emergency floor cannot exceed delay hours" 400)
  else .ok ()

/-- The checks and the primary key of the tables. -/
def groupConstraints (params : GroupParams) : Bool :=
  decide (2 ≤ params.threshold ∧ params.threshold ≤ 5) &&
    decide (3 ≤ params.totalShares ∧ params.totalShares ≤ 5) &&
    decide (params.threshold ≤ params.totalShares) &&
    decide (4 ≤ params.delayHours ∧ params.delayHours ≤ 168) &&
    decide (1 ≤ params.emergencyFloorHours ∧ params.emergencyFloorHours ≤ 24) &&
    decide (params.emergencyFloorHours ≤ params.delayHours) &&
    decide (params.shareEnvelopes.map Share.holderPubkey).Nodup

/-- The delete, which cascades to the shares, and the inserts. -/
def replaceGroup (db : Db N) (params : GroupParams) (rotatedAt : Option Int) :
    Except RecoveryError (Db N) :=
  if !groupConstraints params then .error .database
  else
    let group : Group :=
      { groupPublicKey := params.groupPublicKey
        threshold := params.threshold
        totalShares := params.totalShares
        shareCommitments := params.shareCommitments
        duressCommitments := params.duressCommitments
        sigchainLinkHash := params.sigchainLinkHash
        delayHours := params.delayHours
        emergencyFloorHours := params.emergencyFloorHours
        rotatedAt := rotatedAt }
    .ok { db with
      groups := Function.update db.groups params.hubId (some group)
      shares := Function.update db.shares params.hubId params.shareEnvelopes }

def enrollHub (db : Db N) (params : GroupParams) : Except RecoveryError (Db N) := do
  checkGroup params
  replaceGroup db params none

/-- The `UPDATE`s of `rotateGroup`, of the envelopes of one hub. -/
def rewrap (envelopes rewrapped : List (String × String)) : List (String × String) :=
  rewrapped.foldl (fun rows new => rows.map fun row => if row.1 = new.1 then new else row) envelopes

/-- The checks of `rotateGroup` on the tables. -/
def checkRotation (db : Db N) (hubId : String) (rewrappedUserEnvelopes : List (String × String)) :
    Except RecoveryError Unit :=
  let currentUserPubkeys := ((db.userEnvelopes hubId).map Prod.fst).dedup
  let rewrappedUserPubkeys := (rewrappedUserEnvelopes.map Prod.fst).dedup
  if (db.groups hubId).isNone then
    .error (.recoveryGroup
      "No recovery group configured for this hub — use enroll for initial setup" 404)
  else if currentUserPubkeys.length ≠ rewrappedUserPubkeys.length ∨
      ¬ ∀ pk ∈ currentUserPubkeys, pk ∈ rewrappedUserPubkeys then
    .error (.recoveryGroup ("rewrappedUserEnvelopes must re-wrap exactly the set of users " ++
      "currently enrolled for this hub") 409)
  else .ok ()

def rotateGroup (db : Db N) (params : GroupParams) (rewrappedUserEnvelopes : List (String × String))
    (now : Int) : Except RecoveryError (Db N) := do
  checkGroup params
  checkRotation db params.hubId rewrappedUserEnvelopes
  let replaced ← replaceGroup db params (some now)
  return { replaced with
    userEnvelopes := Function.update db.userEnvelopes params.hubId
      (rewrap (db.userEnvelopes params.hubId) rewrappedUserEnvelopes) }

/-- `putUserEnvelope`: an insert, or an update on a conflict. -/
def putUserEnvelope (db : Db N) (userPubkey hubId envelope : String) : Db N :=
  let envelopes := db.userEnvelopes hubId
  { db with
    userEnvelopes := Function.update db.userEnvelopes hubId
      (if envelopes.any (·.1 = userPubkey) then
        envelopes.map fun row => if row.1 = userPubkey then (userPubkey, envelope) else row
      else envelopes ++ [(userPubkey, envelope)]) }

/-- The row that `initiateRecovery` inserts. -/
def pendingSession (prims : RecoveryPrims N)
    (hubId userPubkey newDevicePubkey code hmacSecret : String) (delayHours : Nat) (now : Int) :
    Session where
  hubId := hubId
  userPubkey := userPubkey
  newDevicePubkey := newDevicePubkey
  verificationCodeHash := some (prims.hmac hmacSecret code)
  expiresAt := now + delayHours * HOUR_MS
  createdAt := now

/-! ## Runs -/

structure System (N : Type) where
  db : Db N
  tasks : Nat → Option (Task N) := fun _ => none

inductive Event (N : Type) where
  | call (task : Nat) (op : Op N) (now : Int)
  | resume (task : Nat) (now : Int) (insert : Insert)
  /-- The `INSERT` of `initiateRecovery`, which has read the group and the user before. -/
  | initiateRecovery (sessionId hubId userPubkey newDevicePubkey code hmacSecret : String)
      (delayHours : Nat) (now : Int)
  | enrollHub (params : GroupParams)
  | rotateGroup (params : GroupParams) (rewrappedUserEnvelopes : List (String × String))
      (now : Int)
  | putUserEnvelope (userPubkey hubId envelope : String)

/-- The task that a call goes on with. -/
def Progress.task : Progress N → Option (Task N)
  | .more task => some task
  | .done _ => none

/-- The tables after a transaction, which changes nothing if it throws. -/
def System.commit (s : System N) : Except RecoveryError (Db N) → System N
  | .ok db => { s with db := db }
  | .error _ => s

variable (prims : RecoveryPrims N)

def step (s : System N) : Event N → Option (System N)
  | .call i op now =>
    match s.tasks i with
    | some _ => none
    | none => some { s with tasks := Function.update s.tasks i (call prims s.db op now).task }
  | .resume i now insert =>
    match s.tasks i with
    | none => none
    | some task =>
      let after := resume prims s.db now insert task
      some { db := after.1, tasks := Function.update s.tasks i after.2.task }
  | .initiateRecovery sessionId hubId userPubkey newDevicePubkey code hmacSecret delayHours now =>
    match s.db.sessions sessionId with
    | some _ => none
    | none =>
      let row :=
        pendingSession prims hubId userPubkey newDevicePubkey code hmacSecret delayHours now
      some { s with
        db := { s.db with sessions := Function.update s.db.sessions sessionId (some row) } }
  | .enrollHub params => some (s.commit (enrollHub s.db params))
  | .rotateGroup params rewrappedUserEnvelopes now =>
    some (s.commit (rotateGroup s.db params rewrappedUserEnvelopes now))
  | .putUserEnvelope userPubkey hubId envelope =>
    some { s with db := putUserEnvelope s.db userPubkey hubId envelope }

/-! ## What a statement writes -/

/-- The status that a statement stores, and the session it stores it to. -/
def stores (db : Db N) (insert : Insert) : Task N → Option (String × SessionStatus)
  | .verifyExpire sessionId _ => some (sessionId, .expired)
  | .verifyStore sessionId _ => some (sessionId, .verified)
  | .contributeCommit params session contributionCount threshold =>
    if contributed db params then none
    else if threshold ≤ contributionCount ∧ session.status = .verified then
      some (params.sessionId, .active)
    else none
  | .cancelStore sessionId _ _ => some (sessionId, .cancelled)
  | .completeCommit params session =>
    match recoveryRow prims db params session insert with
    | .ok _ => some (params.sessionId, .completed)
    | .error _ => none
  | .overrideStore params _ => some (params.sessionId, .active)
  | _ => none

/-- A session's status after a statement that stores one. -/
def statusAfter (stored : Option (String × SessionStatus)) (sessionId : String)
    (status : SessionStatus) : SessionStatus :=
  match stored with
  | some (id, new) => if sessionId = id then new else status
  | none => status

/-- The hub and the status of a session. -/
def sessionState (db : Db N) (sessionId : String) : Option (String × SessionStatus) :=
  (db.sessions sessionId).map fun row => (row.hubId, row.status)

/-- What a statement may write: contributions, and at most one status. -/
structure Resumed (db db' : Db N) (stored : Option (String × SessionStatus)) : Prop where
  groups : db'.groups = db.groups
  shares : db'.shares = db.shares
  contributions : ∀ sessionId, db.contributions sessionId ⊆ db'.contributions sessionId
  sessions : ∀ sessionId, sessionState db' sessionId =
    (sessionState db sessionId).map fun state =>
      (state.1, statusAfter stored sessionId state.2)

section Writes

variable {prims : RecoveryPrims N} {db : Db N}

theorem resumed_refl : Resumed db db none where
  groups := rfl
  shares := rfl
  contributions _ := List.Subset.refl _
  sessions sessionId := by
    cases h : sessionState db sessionId <;> rfl

variable {status : SessionStatus}

/-- A statement that stores a status. -/
theorem resumed_store {sessionId : String} {set : Session → Session}
    (hset : ∀ row, (set row).hubId = row.hubId ∧ (set row).status = status) :
    Resumed db (updateSession db sessionId set) (some (sessionId, status)) where
  groups := rfl
  shares := rfl
  contributions _ := List.Subset.refl _
  sessions id := by
    by_cases hid : id = sessionId
    · subst hid
      simp only [sessionState, updateSession, Function.update_self, statusAfter, if_true,
        Option.map_map, Function.comp_def, hset]
    · simp only [sessionState, updateSession, Function.update_of_ne hid, statusAfter, if_neg hid,
        Option.map_map, Function.comp_def]

/-- A statement that updates other columns. -/
theorem resumed_keep {sessionId : String} {set : Session → Session}
    (hset : ∀ row, (set row).hubId = row.hubId ∧ (set row).status = row.status) :
    Resumed db (updateSession db sessionId set) none where
  groups := rfl
  shares := rfl
  contributions _ := List.Subset.refl _
  sessions id := by
    by_cases hid : id = sessionId
    · subst hid
      simp only [sessionState, updateSession, Function.update_self, statusAfter, Option.map_map,
        Function.comp_def, hset]
    · simp only [sessionState, updateSession, Function.update_of_ne hid, statusAfter,
        Option.map_map, Function.comp_def]

/-- After an insert of contributions or links, what the update stores. -/
theorem Resumed.after_insert {db₁ db₂ : Db N} {stored : Option (String × SessionStatus)}
    (h : Resumed db₁ db₂ stored) (hgroups : db₁.groups = db.groups)
    (hshares : db₁.shares = db.shares) (hsessions : db₁.sessions = db.sessions)
    (hsub : ∀ sessionId, db.contributions sessionId ⊆ db₁.contributions sessionId) :
    Resumed db db₂ stored where
  groups := h.groups.trans hgroups
  shares := h.shares.trans hshares
  contributions sessionId := List.Subset.trans (hsub sessionId) (h.contributions sessionId)
  sessions sessionId := by
    rw [h.sessions, sessionState, hsessions, sessionState]

theorem subset_insert (contributions : String → List Contribution) (sessionId : String)
    (c : Contribution) (id : String) : contributions id ⊆
      Function.update contributions sessionId (contributions sessionId ++ [c]) id := by
  by_cases hid : id = sessionId
  · rw [hid, Function.update_self]
    exact List.subset_append_left _ _
  · rw [Function.update_of_ne hid]
    exact List.Subset.refl _

theorem contributeCommit_resumed {params : ContributeParams} {session : Session}
    {contributionCount threshold : Nat} {now : Int} {db' : Db N} {newStatus : SessionStatus}
    (hnew : contributed db params = false)
    (h : contributeCommit db params session contributionCount threshold now =
      some (db', newStatus)) :
    Resumed db db' (if threshold ≤ contributionCount ∧ session.status = .verified then
      some (params.sessionId, .active) else none) := by
  rw [contributeCommit, hnew] at h
  by_cases hactive : threshold ≤ contributionCount ∧ session.status = .verified
  · rw [if_pos hactive]
    simp only [Bool.false_eq_true, if_false, if_pos hactive, Option.some.injEq] at h
    cases h
    refine (resumed_store ?_).after_insert rfl rfl rfl (subset_insert _ _ _)
    exact fun _ => ⟨rfl, rfl⟩
  · rw [if_neg hactive]
    simp only [Bool.false_eq_true, if_false, if_neg hactive, Option.some.injEq] at h
    cases h
    exact resumed_refl.after_insert rfl rfl rfl (subset_insert _ _ _)

/-- **What a statement writes.** -/
theorem resume_resumed (prims : RecoveryPrims N) (db : Db N) (now : Int) (insert : Insert)
    (task : Task N) :
    Resumed db (resume prims db now insert task).1 (stores prims db insert task) := by
  cases task with
  | verifyExpire sessionId message => exact resumed_store fun _ => ⟨rfl, rfl⟩
  | verifyAttempt sessionId attempts => exact resumed_keep fun _ => ⟨rfl, rfl⟩
  | verifyStore sessionId expiresAt => exact resumed_store fun _ => ⟨rfl, rfl⟩
  | cancelStore sessionId cancelledBy cancelledAt => exact resumed_store fun _ => ⟨rfl, rfl⟩
  | overrideStore params expiresAt => exact resumed_store fun _ => ⟨rfl, rfl⟩
  | contributeHolders params session =>
    rw [resume]
    split_ifs <;> exact resumed_refl
  | contributeExisting params session =>
    rw [resume]
    split_ifs <;> exact resumed_refl
  | contributeCommit params session count threshold =>
    rw [resume, stores]
    by_cases hdup : contributed db params = true
    · rw [if_pos hdup, contributeCommit, if_pos hdup]
      exact resumed_refl
    · rw [if_neg hdup]
      cases h : contributeCommit db params session count threshold now with
      | none =>
        rw [contributeCommit, if_neg hdup] at h
        split_ifs at h
      | some after => exact contributeCommit_resumed (Bool.not_eq_true _ ▸ hdup) h
  | completeCommit params session =>
    rw [resume, completeCommit, stores]
    cases recoveryRow prims db params session insert with
    | error err => exact resumed_refl
    | ok row =>
      refine (resumed_store ?_).after_insert rfl rfl rfl fun _ => List.Subset.refl _
      exact fun _ => ⟨rfl, rfl⟩
  | _ => exact resumed_refl

/-! ## What a step does to a session -/

theorem replaceGroup_ok {params : GroupParams} {rotatedAt : Option Int} {db' : Db N}
    (h : replaceGroup db params rotatedAt = .ok db') :
    db'.sessions = db.sessions ∧ db'.contributions = db.contributions := by
  unfold replaceGroup at h
  split at h
  · cases h
  · obtain rfl := Except.ok.inj h
    exact ⟨rfl, rfl⟩

theorem ok_of_bind {α β : Type} {x : Except RecoveryError α} {f : α → Except RecoveryError β}
    {b : β} (h : x >>= f = .ok b) : ∃ a, x = .ok a ∧ f a = .ok b := by
  cases x with
  | error err => cases h
  | ok a => exact ⟨a, rfl, h⟩

theorem enrollHub_ok {params : GroupParams} {db' : Db N} (h : enrollHub db params = .ok db') :
    db'.sessions = db.sessions ∧ db'.contributions = db.contributions := by
  obtain ⟨-, -, h⟩ := ok_of_bind h
  exact replaceGroup_ok h

theorem rotateGroup_ok {params : GroupParams} {rewrapped : List (String × String)} {now : Int}
    {db' : Db N} (h : rotateGroup db params rewrapped now = .ok db') :
    db'.sessions = db.sessions ∧ db'.contributions = db.contributions := by
  obtain ⟨-, -, h⟩ := ok_of_bind h
  obtain ⟨-, -, h⟩ := ok_of_bind h
  obtain ⟨replaced, hreplaced, h⟩ := ok_of_bind h
  have hsame := replaceGroup_ok hreplaced
  obtain rfl := Except.ok.inj h
  exact hsame

/-- The status that a step stores, and the session it stores it to. -/
def storedBy (prims : RecoveryPrims N) (s : System N) : Event N → Option (String × SessionStatus)
  | .resume i _ insert => (s.tasks i).bind (stores prims s.db insert)
  | _ => none

variable {s s' : System N} {e : Event N}

/-- A replacement of a group leaves the sessions and what was contributed to them. -/
theorem commit_sessions {result : Except RecoveryError (Db N)}
    (h : ∀ db', result = .ok db' →
      db'.sessions = s.db.sessions ∧ db'.contributions = s.db.contributions) :
    (s.commit result).db.sessions = s.db.sessions ∧
      (s.commit result).db.contributions = s.db.contributions := by
  cases result with
  | error err => exact ⟨rfl, rfl⟩
  | ok db' => exact h db' rfl

/-- **What a step does to a session**: it keeps its hub, and has the status that the step stores,
or keeps that too. -/
theorem step_sessionState (h : step prims s e = some s') {sessionId hubId : String}
    (hrow : sessionState s.db sessionId = some (hubId, status)) :
    sessionState s'.db sessionId =
      some (hubId, statusAfter (storedBy prims s e) sessionId status) := by
  have hkeep : s'.db.sessions = s.db.sessions → storedBy prims s e = none →
      sessionState s'.db sessionId =
        some (hubId, statusAfter (storedBy prims s e) sessionId status) := by
    intro hdb hnone
    rw [hnone, sessionState, hdb]
    exact hrow
  cases e with
  | call i op now =>
    rw [step] at h
    cases htask : s.tasks i with
    | some _ => rw [htask] at h; cases h
    | none =>
      rw [htask] at h
      exact hkeep (Option.some.inj h ▸ rfl) rfl
  | resume i now insert =>
    rw [step] at h
    cases htask : s.tasks i with
    | none => rw [htask] at h; cases h
    | some task =>
      rw [htask] at h
      obtain rfl := Option.some.inj h
      have hresumed := (resume_resumed prims s.db now insert task).sessions sessionId
      rw [hrow] at hresumed
      rw [storedBy, htask]
      exact hresumed
  | initiateRecovery id _ _ _ _ _ _ _ =>
    rw [step] at h
    cases hid : s.db.sessions id with
    | some _ => rw [hid] at h; cases h
    | none =>
      rw [hid] at h
      obtain rfl := Option.some.inj h
      have hne : sessionId ≠ id := by
        rintro rfl
        rw [sessionState, hid] at hrow
        cases hrow
      simp only [sessionState, Function.update_of_ne hne]
      exact hrow
  | enrollHub params =>
    obtain rfl := Option.some.inj h
    exact hkeep (commit_sessions fun _ h => enrollHub_ok h).1 rfl
  | rotateGroup params rewrapped now =>
    obtain rfl := Option.some.inj h
    exact hkeep (commit_sessions fun _ h => rotateGroup_ok h).1 rfl
  | putUserEnvelope userPubkey hub envelope =>
    exact hkeep (Option.some.inj h ▸ rfl) rfl

/-- A session that a step makes is pending. -/
theorem step_newSession (h : step prims s e = some s') {sessionId hubId : String}
    (hnone : sessionState s.db sessionId = none)
    (hnew : sessionState s'.db sessionId = some (hubId, status)) : status = .pending := by
  have hkeep : s'.db.sessions = s.db.sessions → status = .pending := by
    intro hdb
    rw [sessionState, hdb] at hnew
    rw [sessionState, hnew] at hnone
    cases hnone
  cases e with
  | call i op now =>
    rw [step] at h
    cases htask : s.tasks i with
    | some _ => rw [htask] at h; cases h
    | none =>
      rw [htask] at h
      exact hkeep (Option.some.inj h ▸ rfl)
  | resume i now insert =>
    rw [step] at h
    cases htask : s.tasks i with
    | none => rw [htask] at h; cases h
    | some task =>
      rw [htask] at h
      obtain rfl := Option.some.inj h
      have hresumed := (resume_resumed prims s.db now insert task).sessions sessionId
      rw [hnone, Option.map_none, hnew] at hresumed
      cases hresumed
  | initiateRecovery id hub userPubkey newDevicePubkey code secret delayHours now =>
    rw [step] at h
    cases hid : s.db.sessions id with
    | some _ => rw [hid] at h; cases h
    | none =>
      rw [hid] at h
      obtain rfl := Option.some.inj h
      by_cases hsame : sessionId = id
      · subst hsame
        simp only [sessionState, Function.update_self, Option.map_some, Option.some.injEq] at hnew
        exact (congrArg Prod.snd hnew).symm
      · simp only [sessionState, Function.update_of_ne hsame] at hnew
        rw [sessionState, hnew] at hnone
        cases hnone
  | enrollHub params =>
    obtain rfl := Option.some.inj h
    exact hkeep (commit_sessions fun _ h => enrollHub_ok h).1
  | rotateGroup params rewrapped now =>
    obtain rfl := Option.some.inj h
    exact hkeep (commit_sessions fun _ h => rotateGroup_ok h).1
  | putUserEnvelope userPubkey hub envelope => exact hkeep (Option.some.inj h ▸ rfl)

end Writes

end Llamenos.Worker.RecoveryGroup

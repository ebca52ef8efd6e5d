import Llamenos.Lib.Runs
import Llamenos.Worker.Auth

/-!
# The erasure service

`ErasureService` of `apps/worker/services/erasure.ts` and the expiry worker of
`apps/worker/lib/erasure-expiry-worker.ts`, over the tables of `apps/worker/db/schema/erasure.ts`
and those that an erasure reads or rewrites: a user's erasure requests, the cascade that erases the
user, and the jobs that take the user's envelopes out of the rows of a hub.

One SQL statement, and one transaction, is one step; a call of several goes on from what it has
read (`resume`), while others do the same. A statement may fail. The expiry worker's pass goes
through the list of requests that it has read, and claims each before it erases the user.

A run is any interleaving of the statements of any number of calls and passes, with any readings of
the clock.

Results:
* `step_spec`: **what a step writes to the requests**.
* `step_tasks`: where a statement under way comes from.
-/

namespace Llamenos.Worker.Erasure

open Llamenos.Lib Llamenos.Crypto

/-! ## The tables -/

def EMERGENCY_MIN_HOURS : Int := 4

def DEFAULT_ERASURE_DELAY_HOURS : Int := 72

def HOUR_MS : Int := 60 * 60 * 1000

def ADMIN_ROLES : List String := ["role-super-admin", "role-admin", "role-hub-admin"]

def LABEL_ERASURE_OVERRIDE_SIG : String := "llamenos:erasure-override-sig:v1"

inductive RequestStatus where
  | pending
  | executing
  | completed
  | cancelled
  | failed
  deriving DecidableEq

/-- A row of `erasure_requests`. -/
structure Request where
  id : String
  userId : String
  status : RequestStatus := .pending
  requestedBy : String
  requestedAt : Int
  executeAt : Int
  executedAt : Option Int := none
  justification : Option String := none
  emergencyOverride : Bool := false
  coApproverPubkey : Option String := none
  coApproverSignature : Option String := none
  cancelledAt : Option Int := none
  deriving DecidableEq

/-- A row of `erasure_config`, without its `hub_id`. -/
structure ErasureConfig where
  delayHours : Int
  emergencyOverrideEnabled : Bool

inductive JobStatus where
  | queued
  | running
  | completed
  deriving DecidableEq

/-- A row of `re_encryption_jobs`. -/
structure ReEncryptionJob where
  id : String
  userId : String
  hubId : String
  status : JobStatus := .queued
  totalEnvelopes : Nat := 0
  processedEnvelopes : Nat := 0

/-- An envelope in a JSON column. -/
structure Envelope where
  pubkey : Option String
  enc : String
  ct : String

/-- A row of `notes`; an empty `author_envelope` is none. -/
structure Note where
  id : String
  hubId : Option String
  authorPubkey : String
  authorEnvelope : Option Envelope
  adminEnvelopes : List Envelope := []
  fieldEnvelopes : List Envelope := []

/-- A row of `note_replies`. -/
structure NoteReply where
  noteId : String
  readerEnvelopes : List Envelope

/-- A row of `messages`. -/
structure Message where
  conversationId : String
  readerEnvelopes : List Envelope

/-- The other tables that have envelopes. -/
inductive EnvelopeTable where
  | contacts
  | contactRelationships
  | affinityGroups
  | caseRecords
  | events
  | reportCases
  | caseInteractions
  | evidence
  | callRecords
  | files
  | hubRecoveryGroupShares

/-- A row of one of them: its hub, or that of the row it belongs to, and the envelopes of all its
columns. -/
structure OtherRow where
  table : EnvelopeTable
  hubId : Option String
  envelopes : List Envelope

/-- The tables: configurations by hub, the users' roles by public key, `hub_keys` as hubs and
recipients, the hubs of conversations by id. -/
structure Db where
  requests : List Request := []
  configs : String → Option ErasureConfig := fun _ => none
  users : String → Option (List String) := fun _ => none
  hubKeys : List (String × String) := []
  notes : List Note := []
  noteReplies : List NoteReply := []
  conversations : String → Option String := fun _ => none
  messages : List Message := []
  others : List OtherRow := []
  jobs : List ReEncryptionJob := []

/-- `ServiceError`, or an error of the database. -/
inductive ErasureError where
  | service (status : Nat) (message : String)
  | database

/-- `UPDATE erasure_requests SET … WHERE id = …`. -/
def updateRequest (requests : List Request) (id : String) (set : Request → Request) :
    List Request :=
  requests.map fun row => if row.id = id then set row else row

/-! ## The cascade -/

/-- The hubs that `executeErasure` reads before its transaction. -/
def hubMemberships (db : Db) (userId : String) : List String :=
  ((db.hubKeys.filter (·.2 = userId)).map Prod.fst ++
    (db.notes.filter (·.authorPubkey = userId)).filterMap Note.hubId).dedup

/-- The jobs that the transaction inserts, one for each hub that has a name. -/
def newJobs (userId : String) (hubs jobIds : List String) : List ReEncryptionJob :=
  (jobIds.zip (hubs.filter (· ≠ ""))).map fun (id, hubId) => { id, userId, hubId }

/-- The requests that the transaction completes. -/
def completeRequests (userId : String) (now : Int) (requests : List Request) : List Request :=
  requests.map fun row =>
    if row.userId = userId ∧ row.status = .executing then
      { row with status := .completed, executedAt := some now }
    else row

/-- The transaction of `executeErasure`, with the ids of its jobs; it fails if one is taken. -/
def executeCommit (db : Db) (userId : String) (hubs jobIds : List String) (now : Int) :
    Option Db :=
  if jobIds.length = (hubs.filter (· ≠ "")).length ∧
      (db.jobs.map ReEncryptionJob.id ++ jobIds).Nodup then
    some { db with
      hubKeys := db.hubKeys.filter (·.2 ≠ userId)
      jobs := db.jobs ++ newJobs userId hubs jobIds
      requests := completeRequests userId now db.requests }
  else none

/-! ## Calls and their statements -/

structure Emergency where
  coApproverPubkey : String
  coApproverSignature : String
  timestamp : String

/-- A call of the service, or a pass of the expiry worker. -/
inductive Op where
  | createSelfRequest (userId hubId : String) (justification : Option String)
      (emergency : Option Emergency)
  | cancelSelfRequest (userId : String)
  | executeErasure (userId : String)
  | processExpiredErasures

/-- The next statement of a call, with what the call has read before. -/
inductive Task where
  | createConfig (userId hubId : String) (justification : Option String)
      (emergency : Option Emergency)
  | createApprover (userId : String) (justification : Option String) (emergency : Emergency)
  | createInsert (row : Request)
  | cancelStore (requestId : String) (cancelledAt : Int)
  | executeCommit (userId : String) (hubs : List String)
  | markExecuting (request : Request) (rest : List Request)
  | passMemberships (request : Request) (rest : List Request)
  | passCommit (request : Request) (rest : List Request) (hubs : List String)
  | markFailed (claimed : Bool) (request : Request) (rest : List Request)

/-- What a step is told: the clock, which of the rows a `LIMIT 1` gives, the order of the rows that
a pass reads, new ids, whether the statement fails, and whether the wipe that follows an erasure
throws. -/
structure Input where
  now : Int
  pick : Nat := 0
  due : List Request := []
  id : String := ""
  jobIds : List String := []
  fails : Bool := false
  wipeThrows : Bool := false

inductive Reply where
  | created (row : Request)
  | cancelled
  | executed (reEncryptionJobIds : List String)
  | passed

/-- A call goes on, or is over. -/
inductive Progress where
  | more (task : Task)
  | done (reply : Except ErasureError Reply)

/-- `throw new ServiceError(status, message)`. -/
def throws (status : Nat) (message : String) : Progress := .done (.error (.service status message))

/-- `getMyRequest`. -/
def getMyRequest (db : Db) (userId : String) (pick : Nat) : Option Request :=
  let rows := db.requests.filter fun row => row.userId = userId ∧ row.status = .pending
  rows[pick % rows.length]?

/-- The rows of `getExpiredPendingRequests`. -/
def expiredPending (db : Db) (now : Int) : List Request :=
  db.requests.filter fun row => row.status = .pending ∧ row.executeAt < now

/-- The worker goes on with the next request. -/
def nextRequest : List Request → Progress
  | [] => .done (.ok .passed)
  | request :: rest => .more (.markExecuting request rest)

/-- A call, with its first statement. -/
def call (db : Db) (input : Input) (op : Op) : Option Progress :=
  if input.fails then some (.done (.error .database))
  else match op with
  | .createSelfRequest userId hubId justification emergency =>
    some (match getMyRequest db userId input.pick with
      | some _ => throws 409 "Erasure request already pending"
      | none => .more (.createConfig userId hubId justification emergency))
  | .cancelSelfRequest userId =>
    some (match getMyRequest db userId input.pick with
      | none => throws 404 "No pending erasure request found"
      | some existing => .more (.cancelStore existing.id input.now))
  | .executeErasure userId => some (.more (.executeCommit userId (hubMemberships db userId)))
  | .processExpiredErasures =>
    if input.due.Perm (expiredPending db input.now) then some (nextRequest input.due) else none

/-! ## The statements that follow -/

/-- The `try` block of `createSelfRequest`. -/
def coApproverSigned (ed25519 : Ed25519) (userId : String) (emergency : Emergency) : Bool :=
  let sigMessage := asBytes s!"{LABEL_ERASURE_OVERRIDE_SIG}:{userId}:{emergency.timestamp}"
  match hexToBytes emergency.coApproverPubkey, hexToBytes emergency.coApproverSignature with
  | some key, some signature => (ed25519Verify ed25519 key sigMessage signature).getD false
  | _, _ => false

/-- The row that `createSelfRequest` inserts. -/
def newRequest (userId : String) (justification : Option String) (emergency : Option Emergency)
    (effectiveDelayHours : Int) (input : Input) : Request where
  id := input.id
  userId := userId
  requestedBy := userId
  requestedAt := input.now
  executeAt := input.now + effectiveDelayHours * HOUR_MS
  justification := justification
  emergencyOverride := emergency.isSome
  coApproverPubkey := emergency.map Emergency.coApproverPubkey
  coApproverSignature := emergency.map Emergency.coApproverSignature

/-- `createSelfRequest` after `getConfig`. -/
def createConfig (ed25519 : Ed25519) (userId : String) (justification : Option String)
    (emergency : Option Emergency) (config : Option ErasureConfig) (input : Input) : Progress :=
  match emergency with
  | none =>
    let delayHours := config.elim DEFAULT_ERASURE_DELAY_HOURS ErasureConfig.delayHours
    .more (.createInsert (newRequest userId justification none delayHours input))
  | some emergency =>
    if config.any (!·.emergencyOverrideEnabled) then
      throws 403 "Emergency override is disabled for this hub"
    else if emergency.coApproverPubkey = userId then
      throws 400 "Co-approver cannot be the same user as the requester"
    else if !coApproverSigned ed25519 userId emergency then
      throws 400 "Co-approver signature verification failed"
    else .more (.createApprover userId justification emergency)

/-- `identity.getUserInternal`: the roles. -/
def getUserInternal (db : Db) (pubkey : String) : Option (List String) :=
  if Auth.isRevokedSigningKey pubkey then none else db.users pubkey

/-- `createSelfRequest` after it has read the co-approver. -/
def createApprover (userId : String) (justification : Option String) (emergency : Emergency)
    (coApproverRoles : Option (List String)) (input : Input) : Progress :=
  if (coApproverRoles.getD []).any (ADMIN_ROLES.contains ·) then
    .more (.createInsert (newRequest userId justification (some emergency) EMERGENCY_MIN_HOURS
      input))
  else throws 403 "Co-approver must be a registered admin device"

/-- `markExecuting`: the requests after it, if it has claimed the request. -/
def markExecuting (requests : List Request) (requestId : String) : Option (List Request) :=
  if requests.any fun row => row.id = requestId ∧ row.status = .pending then
    some (requests.map fun row =>
      if row.id = requestId ∧ row.status = .pending then { row with status := .executing }
      else row)
  else none

/-- A statement of a call, after its first: the tables after it, and how the call goes on. -/
def resume (ed25519 : Ed25519) (db : Db) (input : Input) : Task → Db × Progress
  | .createConfig userId hubId justification emergency =>
    (db, if input.fails then .done (.error .database)
      else createConfig ed25519 userId justification emergency (db.configs hubId) input)
  | .createApprover userId justification emergency =>
    (db, if input.fails then .done (.error .database)
      else createApprover userId justification emergency
        (getUserInternal db emergency.coApproverPubkey) input)
  | .createInsert row =>
    if input.fails ∨ row.id ∈ db.requests.map Request.id then (db, .done (.error .database))
    else ({ db with requests := db.requests ++ [row] }, .done (.ok (.created row)))
  | .cancelStore requestId cancelledAt =>
    if input.fails then (db, .done (.error .database))
    else
      ({ db with
          requests := updateRequest db.requests requestId fun row =>
            { row with status := .cancelled, cancelledAt := some cancelledAt } },
        .done (.ok .cancelled))
  | .executeCommit userId hubs =>
    match if input.fails then none else executeCommit db userId hubs input.jobIds input.now with
    | none => (db, .done (.error .database))
    | some db' => (db', .done (.ok (.executed input.jobIds)))
  | .markExecuting request rest =>
    if input.fails then (db, .more (.markFailed false request rest))
    else match markExecuting db.requests request.id with
      | none => (db, nextRequest rest)
      | some requests => ({ db with requests }, .more (.passMemberships request rest))
  | .passMemberships request rest =>
    (db, .more (if input.fails then .markFailed true request rest
      else .passCommit request rest (hubMemberships db request.userId)))
  | .passCommit request rest hubs =>
    match if input.fails then none
      else executeCommit db request.userId hubs input.jobIds input.now with
    | none => (db, .more (.markFailed true request rest))
    | some db' =>
      (db', if input.wipeThrows then .more (.markFailed true request rest) else nextRequest rest)
  | .markFailed _ request rest =>
    if input.fails then (db, .done (.ok .passed))
    else
      ({ db with
          requests := updateRequest db.requests request.id fun row =>
            { row with status := .failed } },
        nextRequest rest)

/-! ## Runs -/

inductive Event where
  | call (task : Nat) (op : Op) (input : Input)
  | resume (task : Nat) (input : Input)

def Event.input : Event → Input
  | .call _ _ input => input
  | .resume _ input => input

/-- The tables, the calls under way, and the greatest reading of the clock so far. -/
structure System where
  db : Db
  tasks : Nat → Option Task := fun _ => none
  latest : Int

def start (db : Db) (now : Int) : System where
  db := { db with requests := [] }
  latest := now

/-- The next statement of a call, if there is one. -/
def Progress.task? : Progress → Option Task
  | .more task => some task
  | .done _ => none

def step (ed25519 : Ed25519) (s : System) : Event → Option System
  | .call i op input =>
    match s.tasks i with
    | some _ => none
    | none => (call s.db input op).map fun progress =>
      { s with
        tasks := Function.update s.tasks i progress.task?
        latest := max s.latest input.now }
  | .resume i input => (s.tasks i).map fun task =>
    let (db, progress) := resume ed25519 s.db input task
    { db := db
      tasks := Function.update s.tasks i progress.task?
      latest := max s.latest input.now }

/-! ## What a step writes -/

/-- What a step writes to the requests; `complete` with the request that a pass has claimed. -/
inductive Write where
  | nothing
  | insert (row : Request)
  | cancel (requestId : String) (cancelledAt : Int)
  | claim (requestId : String)
  | complete (claimed : List String) (userId : String) (now : Int)
  | fail (claimed : Bool) (requestId : String)

def Write.apply (requests : List Request) : Write → List Request
  | .nothing => requests
  | .insert row => requests ++ [row]
  | .cancel requestId cancelledAt => updateRequest requests requestId fun row =>
    { row with status := .cancelled, cancelledAt := some cancelledAt }
  | .claim requestId => requests.map fun row =>
    if row.id = requestId ∧ row.status = .pending then { row with status := .executing } else row
  | .complete _ userId now => completeRequests userId now requests
  | .fail _ requestId => updateRequest requests requestId fun row => { row with status := .failed }

/-- Whether the transaction of `executeErasure` commits. -/
def commits (db : Db) (userId : String) (hubs : List String) (input : Input) : Bool :=
  !input.fails && (executeCommit db userId hubs input.jobIds input.now).isSome

def Task.write (db : Db) (input : Input) : Task → Write
  | .createInsert row =>
    if input.fails ∨ row.id ∈ db.requests.map Request.id then .nothing else .insert row
  | .cancelStore requestId cancelledAt =>
    if input.fails then .nothing else .cancel requestId cancelledAt
  | .executeCommit userId hubs =>
    if commits db userId hubs input then .complete [] userId input.now else .nothing
  | .markExecuting request _ =>
    if !input.fails && (Erasure.markExecuting db.requests request.id).isSome then .claim request.id
    else .nothing
  | .passCommit request _ hubs =>
    if commits db request.userId hubs input then
      .complete [request.id] request.userId input.now
    else .nothing
  | .markFailed claimed request _ => if input.fails then .nothing else .fail claimed request.id
  | .createConfig .. | .createApprover .. | .passMemberships .. => .nothing

def written (s : System) : Event → Write
  | .call .. => .nothing
  | .resume i input => (s.tasks i).elim .nothing (Task.write s.db input)

variable {ed25519 : Ed25519}

theorem executeCommit_requests {db db' : Db} {userId : String} {hubs jobIds : List String}
    {now : Int} (h : executeCommit db userId hubs jobIds now = some db') :
    db'.requests = completeRequests userId now db.requests := by
  obtain ⟨-, h⟩ := Option.ite_none_right_eq_some.mp h
  rw [← Option.some.inj h]

theorem markExecuting_eq_some {requests requests' : List Request} {requestId : String}
    (h : markExecuting requests requestId = some requests') :
    requests' = (Write.claim requestId).apply requests := by
  obtain ⟨-, h⟩ := Option.ite_none_right_eq_some.mp h
  exact (Option.some.inj h).symm

theorem resume_requests (db : Db) (input : Input) (task : Task) :
    (resume ed25519 db input task).1.requests = (task.write db input).apply db.requests := by
  cases task with
  | createConfig | createApprover | passMemberships => rfl
  | createInsert row =>
    rw [resume, Task.write]
    split <;> rfl
  | cancelStore requestId cancelledAt =>
    rw [resume, Task.write]
    split <;> rfl
  | markFailed claimed request rest =>
    rw [resume, Task.write]
    split <;> rfl
  | executeCommit userId hubs =>
    rw [resume, Task.write, commits]
    cases hfails : input.fails with
    | true => simp [Write.apply]
    | false =>
      cases hcommit : executeCommit db userId hubs input.jobIds input.now with
      | none => simp [Write.apply]
      | some db' => simpa [Write.apply] using executeCommit_requests hcommit
  | passCommit request rest hubs =>
    rw [resume, Task.write, commits]
    cases hfails : input.fails with
    | true => simp [Write.apply]
    | false =>
      cases hcommit : executeCommit db request.userId hubs input.jobIds input.now with
      | none => simp [Write.apply]
      | some db' => simpa [Write.apply] using executeCommit_requests hcommit
  | markExecuting request rest =>
    rw [resume, Task.write]
    cases hfails : input.fails with
    | true => simp [Write.apply]
    | false =>
      cases hclaim : markExecuting db.requests request.id with
      | none => simp [Write.apply]
      | some requests => simpa using markExecuting_eq_some hclaim

/-- **What a step does**: its write, and the next statement of its call. -/
theorem step_spec {s s' : System} {e : Event} (h : step ed25519 s e = some s') :
    s'.db.requests = (written s e).apply s.db.requests ∧
      s'.latest = max s.latest e.input.now := by
  cases e with
  | call i op input =>
    rw [step] at h
    cases hi : s.tasks i with
    | some _ => rw [hi] at h; cases h
    | none =>
      rw [hi] at h
      obtain ⟨progress, -, rfl⟩ := Option.map_eq_some_iff.mp h
      exact ⟨rfl, rfl⟩
  | resume i input =>
    obtain ⟨task, hi, rfl⟩ := Option.map_eq_some_iff.mp h
    refine ⟨?_, rfl⟩
    rw [written, hi, Option.elim_some]
    exact resume_requests s.db input task

/-- **Where a statement under way comes from**: it was under way, or it follows a first statement,
or the one before it. -/
theorem step_tasks {s s' : System} {e : Event} (h : step ed25519 s e = some s') {i : Nat}
    {task : Task} (hi : s'.tasks i = some task) :
    (s.tasks i = some task ∧ ∀ input, e ≠ .resume i input) ∨
      (∃ op input, e = .call i op input ∧ call s.db input op = some (.more task)) ∨
      ∃ input before, e = .resume i input ∧ s.tasks i = some before ∧
        (resume ed25519 s.db input before).2 = .more task := by
  cases e with
  | call j op input =>
    rw [step] at h
    cases hj : s.tasks j with
    | some _ => rw [hj] at h; cases h
    | none =>
      rw [hj] at h
      obtain ⟨progress, hcall, rfl⟩ := Option.map_eq_some_iff.mp h
      rcases Runs.update_eq_some hi with ⟨rfl, hfirst⟩ | ⟨-, hkept⟩
      · cases progress with
        | done reply => cases hfirst
        | more first => exact .inr (.inl ⟨op, input, rfl, Option.some.inj hfirst ▸ hcall⟩)
      · exact .inl ⟨hkept, fun _ h => by cases h⟩
  | resume j input =>
    obtain ⟨before, hj, rfl⟩ := Option.map_eq_some_iff.mp h
    rcases Runs.update_eq_some hi with ⟨rfl, hnext⟩ | ⟨hne, hkept⟩
    · cases hresume : (resume ed25519 s.db input before).2 with
      | done reply => rw [hresume] at hnext; cases hnext
      | more next =>
        rw [hresume] at hnext
        exact .inr (.inr ⟨input, before, rfl, hj, Option.some.inj hnext ▸ hresume⟩)
    · exact .inl ⟨hkept, fun _ h => by cases h; exact hne rfl⟩

end Llamenos.Worker.Erasure

import Llamenos.Lib.Runs

/-!
# The calls service

`CallsService` of `apps/worker/services/calls.ts`, over the tables of
`apps/worker/db/schema/calls.ts`: the life of a call from `active_calls` to `call_records`. A table
is a partial function from its primary key. One SQL statement, and one transaction, is one step; a
method of several statements leaves what it has read in a task, and goes on later.

A run is any interleaving of the statements of any number of calls of `answerCall`,
`answerCallWithToken`, `createCallToken`, `endCall`, `markVoicemail`, `updateMetadata`,
`reportSpam` and `getActiveCalls`, whose sweep moves the calls it has read as stale.

Results:
* `step_view`: **what a step does to a call**, as far as its status and its `answeredBy` go.
-/

namespace Llamenos.Worker.Calls

open Llamenos.Lib

/-! ## The tables -/

inductive CallStatus where
  | ringing
  | inProgress
  | spam
  deriving DecidableEq

inductive RecordStatus where
  | unanswered
  | completed

/-- A row of `active_calls`, without its `call_id`. -/
structure ActiveCall where
  hubId : Option String
  callerNumber : String
  callerLast4 : Option String := none
  answeredBy : Option String := none
  status : CallStatus := .ringing
  hasTranscription : Option Bool := some false
  hasVoicemail : Option Bool := some false
  hasRecording : Option Bool := some false
  recordingSid : Option String := none
  reportedBy : Option String := none
  startedAt : Int
  answeredAt : Option Int := none
  endedAt : Option Int := none
  duration : Option Int := none

/-- A row of `call_records`, without its `call_id`; the envelopes are JSON texts. -/
structure CallRecord where
  hubId : Option String
  callerLast4 : Option String
  startedAt : Int
  endedAt : Option Int
  duration : Option Int
  answeredBy : Option String := none
  status : RecordStatus
  hasTranscription : Option Bool
  hasVoicemail : Option Bool
  hasRecording : Option Bool
  recordingSid : Option String
  encryptedContent : String
  adminEnvelopes : List String

/-- A row of `call_tokens`, without its `token`. -/
structure CallToken where
  callSid : String
  volunteerPubkey : String
  hubId : String
  createdAt : Int

structure Db where
  activeCalls : String → Option ActiveCall := fun _ => none
  callRecords : String → Option CallRecord := fun _ => none
  callTokens : String → Option CallToken := fun _ => none

/-- What a method throws. -/
inductive CallsError where
  | service (status : Nat) (message : String)
  | uniqueViolation

variable (db : Db)

/-! ## The sweep of `getActiveCalls` -/

def RINGING_TTL_MS : Int := 3 * 60 * 1000

def IN_PROGRESS_TTL_MS : Int := 2 * 60 * 60 * 1000

def isStale (now : Int) (row : ActiveCall) : Bool :=
  let age := now - row.startedAt
  (row.status = .ringing && RINGING_TTL_MS < age) ||
    (row.status = .inProgress && IN_PROGRESS_TTL_MS < age)

/-- The stale rows of the hub. -/
def staleCalls (hubId : String) (now : Int) : String → Option ActiveCall := fun callId =>
  (db.activeCalls callId).filter fun row => row.hubId = some hubId && isStale now row

/-- The history record of a stale call. -/
def staleRecord (now : Int) (call : ActiveCall) : CallRecord :=
  let endedAt := call.endedAt.getD now
  { hubId := call.hubId
    callerLast4 := call.callerLast4
    startedAt := call.startedAt
    endedAt := some endedAt
    duration := some (call.duration.getD ((endedAt - call.startedAt) / 1000))
    status := if call.status = .ringing then .unanswered else .completed
    hasTranscription := some (call.hasTranscription.getD false)
    hasVoicemail := some (call.hasVoicemail.getD false)
    hasRecording := some (call.hasRecording.getD false)
    recordingSid := call.recordingSid
    encryptedContent := ""
    adminEnvelopes := [] }

/-- The transaction over the stale calls: an insert that does nothing on a conflict, and two
deletes, for each. -/
def moveStale (now : Int) (stale : String → Option ActiveCall) : Db where
  activeCalls := fun callId => if (stale callId).isSome then none else db.activeCalls callId
  callRecords := fun callId =>
    (db.callRecords callId).or ((stale callId).map (staleRecord now))
  callTokens := fun token => (db.callTokens token).filter fun row => (stale row.callSid).isNone

/-! ## The methods -/

/-- `addCall`; the primary key refuses a second row. -/
def addCall (hubId callId callerNumber : String) (callerLast4 : Option String)
    (status : Option CallStatus) (now : Int) : Option Db :=
  match db.activeCalls callId with
  | some _ => none
  | none =>
    let row : ActiveCall :=
      { hubId := some hubId
        callerNumber := callerNumber
        callerLast4 := callerLast4
        status := status.getD .ringing
        startedAt := now }
    some { db with activeCalls := Function.update db.activeCalls callId (some row) }

/-- `UPDATE active_calls … WHERE call_id = … AND …`, with the row it returns. -/
def updateActive (callId : String) (cond : ActiveCall → Bool) (set : ActiveCall → ActiveCall) :
    Db × Option ActiveCall :=
  match db.activeCalls callId with
  | some row =>
    if cond row then
      ({ db with activeCalls := Function.update db.activeCalls callId (some (set row)) },
        some (set row))
    else (db, none)
  | none => (db, none)

/-- The `UPDATE` of `answerCall`. -/
def answerCall (hubId callId pubkey : String) (now : Int) : Db × Option ActiveCall :=
  updateActive db callId
    (fun row => row.hubId = some hubId && row.status = .ringing && row.answeredBy = none)
    fun row => { row with answeredBy := some pubkey, status := .inProgress, answeredAt := some now }

def endCall (hubId callId encryptedContent : String) (adminEnvelopes : List String) (now : Int) :
    Except CallsError (Db × CallRecord) :=
  match (db.activeCalls callId).filter fun row => row.hubId = some hubId with
  | none => .error (.service 404 "Call not found")
  | some call =>
    let record : CallRecord :=
      { hubId := call.hubId
        callerLast4 := call.callerLast4
        startedAt := call.startedAt
        endedAt := some now
        duration := some ((now - call.startedAt) / 1000)
        answeredBy := call.answeredBy
        status := if call.answeredBy.getD "" = "" then .unanswered else .completed
        hasTranscription := some (call.hasTranscription.getD false)
        hasVoicemail := some (call.hasVoicemail.getD false)
        hasRecording := some (call.hasRecording.getD false)
        recordingSid := call.recordingSid
        encryptedContent := encryptedContent
        adminEnvelopes := adminEnvelopes }
    match db.callRecords callId with
    | some _ => .error .uniqueViolation
    | none => .ok
      ({ activeCalls := Function.update db.activeCalls callId none
         callRecords := Function.update db.callRecords callId (some record)
         callTokens := fun token =>
          (db.callTokens token).filter fun row => decide (row.callSid ≠ callId) }, record)

/-- The first `UPDATE` of `markVoicemail`. -/
def markVoicemailActive (hubId callId : String) : Db × Option ActiveCall :=
  updateActive db callId (fun row => row.hubId = some hubId)
    fun row => { row with hasVoicemail := some true }

/-- The second `UPDATE` of `markVoicemail`. -/
def markVoicemailHistory (hubId callId : String) : Except CallsError Db :=
  match (db.callRecords callId).filter fun row => row.hubId = some hubId with
  | none => .error (.service 404 "Call not found")
  | some row => .ok { db with
      callRecords :=
        Function.update db.callRecords callId (some { row with hasVoicemail := some true }) }

/-- The metadata to set, where given. -/
structure Metadata where
  recordingSid : Option (Option String) := none
  hasRecording : Option (Option Bool) := none
  hasTranscription : Option (Option Bool) := none

def updateMetadata (hubId callId : String) (data : Metadata) : Db :=
  (updateActive db callId (fun row => row.hubId = some hubId) fun row =>
    { row with
      recordingSid := data.recordingSid.getD row.recordingSid
      hasRecording := data.hasRecording.getD row.hasRecording
      hasTranscription := data.hasTranscription.getD row.hasTranscription }).1

def reportSpam (hubId callId pubkey : String) : Db :=
  (updateActive db callId (fun row => row.hubId = some hubId) fun row =>
    { row with status := .spam, reportedBy := some pubkey }).1

/-- `createCallToken`, with the random token. -/
def createCallToken (token callSid volunteerPubkey hubId : String) (now : Int) : Db :=
  { db with
    callTokens :=
      Function.update db.callTokens token (some ⟨callSid, volunteerPubkey, hubId, now⟩) }

def TOKEN_TTL_MS : Int := 5 * 60 * 1000

/-- The `SELECT` of `answerCallWithToken`. -/
def selectToken (token : String) (now : Int) : Option CallToken :=
  (db.callTokens token).filter fun row => decide (now - TOKEN_TTL_MS ≤ row.createdAt)

/-- The `UPDATE` of `answerCallWithToken`. -/
def claimCall (row : CallToken) (now : Int) : Db × Option ActiveCall :=
  updateActive db row.callSid
    (fun call => call.hubId = some row.hubId && call.status = .ringing)
    fun call => { call with
      answeredBy := some row.volunteerPubkey, status := .inProgress, answeredAt := some now }

/-! ## Runs -/

/-- A method between two of its statements. -/
inductive Task where
  | sweep (stale : String → Option ActiveCall)
  | claim (token : String) (row : CallToken)
  | voicemail (hubId callId : String)

/-- The tables, the tasks, and every token ever made: `crypto.randomUUID()` makes none twice. -/
structure System where
  db : Db
  tasks : Nat → Option Task := fun _ => none
  issued : String → Option CallToken

/-- The tables as they are, and nothing under way. -/
def start (db : Db) : System := { db := db, issued := db.callTokens }

inductive Event where
  | answerCall (hubId callId pubkey : String) (now : Int)
  | createCallToken (token callSid volunteerPubkey hubId : String) (now : Int)
  | selectToken (task : Nat) (token : String) (now : Int)
  | claimCall (task : Nat) (now : Int)
  | endCall (hubId callId encryptedContent : String) (adminEnvelopes : List String) (now : Int)
  | markVoicemail (task : Nat) (hubId callId : String)
  | markVoicemailHistory (task : Nat)
  | updateMetadata (hubId callId : String) (data : Metadata)
  | reportSpam (hubId callId pubkey : String)
  | selectActive (task : Nat) (hubId : String) (now : Int)
  | moveStale (task : Nat) (now : Int)

/-- Begins a task under a number that is free. -/
def System.begin (s : System) (task : Nat) (t : Task) : Option System :=
  match s.tasks task with
  | none => some { s with tasks := Function.update s.tasks task (some t) }
  | some _ => none

/-- Ends a task and leaves the tables changed. -/
def System.finish (s : System) (task : Nat) (db : Db) : System :=
  { s with db := db, tasks := Function.update s.tasks task none }

def step (s : System) : Event → Option System
  | .answerCall hubId callId pubkey now =>
    some { s with db := (answerCall s.db hubId callId pubkey now).1 }
  | .createCallToken token callSid volunteerPubkey hubId now =>
    match s.issued token with
    | some _ => none
    | none => some { s with
        db := createCallToken s.db token callSid volunteerPubkey hubId now
        issued :=
          Function.update s.issued token (some ⟨callSid, volunteerPubkey, hubId, now⟩) }
  | .selectToken task token now =>
    match selectToken s.db token now with
    | none => some s
    | some row => s.begin task (.claim token row)
  | .claimCall task now =>
    match s.tasks task with
    | some (.claim _ row) => some (s.finish task (claimCall s.db row now).1)
    | _ => none
  | .endCall hubId callId encryptedContent adminEnvelopes now =>
    match endCall s.db hubId callId encryptedContent adminEnvelopes now with
    | .ok (db, _) => some { s with db := db }
    | .error _ => some s
  | .markVoicemail task hubId callId =>
    match markVoicemailActive s.db hubId callId with
    | (db, some _) => some { s with db := db }
    | (_, none) => s.begin task (.voicemail hubId callId)
  | .markVoicemailHistory task =>
    match s.tasks task with
    | some (.voicemail hubId callId) =>
      match markVoicemailHistory s.db hubId callId with
      | .ok db => some (s.finish task db)
      | .error _ => some (s.finish task s.db)
    | _ => none
  | .updateMetadata hubId callId data =>
    some { s with db := updateMetadata s.db hubId callId data }
  | .reportSpam hubId callId pubkey => some { s with db := reportSpam s.db hubId callId pubkey }
  | .selectActive task hubId now => s.begin task (.sweep (staleCalls s.db hubId now))
  | .moveStale task now =>
    match s.tasks task with
    | some (.sweep stale) => some (s.finish task (moveStale s.db now stale))
    | _ => none

/-- An answer that was accepted, and the token it redeemed. -/
structure Answer where
  callId : String
  pubkey : String
  token : Option String

/-- The answers that a step accepts. -/
def answers (s : System) : Event → List Answer
  | .answerCall hubId callId pubkey now =>
    match (answerCall s.db hubId callId pubkey now).2 with
    | some _ => [⟨callId, pubkey, none⟩]
    | none => []
  | .claimCall task now =>
    match s.tasks task with
    | some (.claim token row) =>
      match (claimCall s.db row now).2 with
      | some _ => [⟨row.callSid, row.volunteerPubkey, some token⟩]
      | none => []
    | _ => []
  | _ => []

/-! ## What a step does to a call -/

/-- The status of a call in `active_calls`, and who answered it. -/
def activeView (db : Db) (callId : String) : Option (CallStatus × Option String) :=
  (db.activeCalls callId).map fun row => (row.status, row.answeredBy)

/-- The same in `call_records`. -/
def recordView (db : Db) (callId : String) : Option (RecordStatus × Option String) :=
  (db.callRecords callId).map fun row => (row.status, row.answeredBy)

/-- The answers to a call. -/
def answersTo (callId : String) (as : List Answer) : List Answer :=
  as.filter fun a => a.callId = callId

/-- What can happen to a call in a step: nothing to its views; an answer; a report as spam; its
end; or a sweep that has read it. -/
inductive Change (callId : String) (s : System) (e : Event) (s' : System) : Prop where
  | same (h : answersTo callId (answers s e) = []) (ha : activeView s'.db callId =
      activeView s.db callId) (hr : recordView s'.db callId = recordView s.db callId)
  | answered (a : Answer) (h : answersTo callId (answers s e) = [a]) (v : Option String)
      (ha : activeView s.db callId = some (.ringing, v))
      (ha' : activeView s'.db callId = some (.inProgress, some a.pubkey))
      (hr : recordView s'.db callId = recordView s.db callId)
  | spam (h : answersTo callId (answers s e) = []) (v : CallStatus × Option String)
      (ha : activeView s.db callId = some v) (ha' : activeView s'.db callId = some (.spam, v.2))
      (hr : recordView s'.db callId = recordView s.db callId)
  | ended (h : answersTo callId (answers s e) = []) (hubId content : String)
      (envelopes : List String) (now : Int)
      (he : e = .endCall hubId callId content envelopes now)
      (hhub : ∀ row, s.db.activeCalls callId = some row → row.hubId = some hubId)
      (v : CallStatus × Option String) (ha : activeView s.db callId = some v)
      (hr : recordView s.db callId = none) (ha' : activeView s'.db callId = none)
      (hr' : recordView s'.db callId =
        some (if v.2.getD "" = "" then .unanswered else .completed, v.2))
  | swept (h : answersTo callId (answers s e) = []) (task : Nat) (now : Int)
      (stale : String → Option ActiveCall) (he : e = .moveStale task now)
      (ht : s.tasks task = some (.sweep stale)) (call : ActiveCall)
      (hc : stale callId = some call) (ha' : activeView s'.db callId = none)
      (hr' : recordView s'.db callId = (recordView s.db callId).or
        (some (if call.status = .ringing then .unanswered else .completed, none)))

section Views

variable {db : Db} {s s' : System} {e : Event} {c callId : String} {cond : ActiveCall → Bool}
  {set : ActiveCall → ActiveCall}

theorem updateActive_cases (db : Db) (c : String) (cond : ActiveCall → Bool)
    (set : ActiveCall → ActiveCall) :
    updateActive db c cond set = (db, none) ∨ ∃ row, db.activeCalls c = some row ∧
      cond row = true ∧ updateActive db c cond set =
        ({ db with activeCalls := Function.update db.activeCalls c (some (set row)) },
          some (set row)) := by
  cases hrow : db.activeCalls c with
  | none => exact .inl (by simp only [updateActive, hrow])
  | some row =>
    by_cases hcond : cond row = true
    · exact .inr ⟨row, rfl, hcond, by simp only [updateActive, hrow, if_pos hcond]⟩
    · exact .inl (by simp only [updateActive, hrow, if_neg hcond])

theorem activeView_update (row : ActiveCall) :
    activeView { db with activeCalls := Function.update db.activeCalls c (some row) } callId =
      if callId = c then some (row.status, row.answeredBy) else activeView db callId := by
  by_cases hc : callId = c
  · rw [if_pos hc, hc]
    simp only [activeView, Function.update_self, Option.map_some]
  · simp only [if_neg hc, activeView, Function.update_of_ne hc]

@[simp] theorem answersTo_nil : answersTo callId [] = [] := rfl

theorem answersTo_single (a : Answer) :
    answersTo callId [a] = if a.callId = callId then [a] else [] := by
  by_cases h : a.callId = callId <;> simp [answersTo, h]

/-- An `UPDATE` of a row's other columns changes no view. -/
theorem change_of_keep (hdb : s'.db = (updateActive s.db c cond set).1)
    (hset : ∀ row, (set row).status = row.status ∧ (set row).answeredBy = row.answeredBy)
    (hanswers : answers s e = []) : Change callId s e s' := by
  have hnone : answersTo callId (answers s e) = [] := by rw [hanswers, answersTo_nil]
  rcases updateActive_cases s.db c cond set with
    h | ⟨row, hrow, -, h⟩
  · rw [h] at hdb
    exact .same hnone (by rw [hdb]) (by rw [hdb])
  · rw [h] at hdb
    refine .same hnone ?_ (by rw [hdb]; rfl)
    rw [hdb, activeView_update]
    by_cases hc : callId = c
    · rw [if_pos hc, hc, activeView, hrow, Option.map_some, (hset row).1, (hset row).2]
    · rw [if_neg hc]

/-- An `UPDATE` that accepts an answer does so to a ringing call. -/
theorem change_of_answer (pubkey : String) (token : Option String)
    (hdb : s'.db = (updateActive s.db c cond set).1)
    (hanswers : answers s e = match (updateActive s.db c cond set).2 with
      | some _ => [⟨c, pubkey, token⟩]
      | none => [])
    (hcond : ∀ row, cond row = true → row.status = .ringing)
    (hset : ∀ row, (set row).status = .inProgress ∧ (set row).answeredBy = some pubkey) :
    Change callId s e s' := by
  rcases updateActive_cases s.db c cond set with
    h | ⟨row, hrow, hringing, h⟩
  · rw [h] at hdb hanswers
    exact .same (by rw [hanswers, answersTo_nil]) (by rw [hdb]) (by rw [hdb])
  · rw [h] at hdb hanswers
    by_cases hc : callId = c
    · refine .answered ⟨c, pubkey, token⟩ ?_ row.answeredBy ?_ ?_ (by rw [hdb]; rfl)
      · rw [hanswers, answersTo_single, if_pos hc.symm]
      · rw [hc, activeView, hrow, Option.map_some, hcond row hringing]
      · rw [hdb, activeView_update, if_pos hc, (hset row).1, (hset row).2]
    · refine .same ?_ ?_ (by rw [hdb]; rfl)
      · rw [hanswers, answersTo_single, if_neg fun h => hc h.symm]
      · rw [hdb, activeView_update, if_neg hc]

theorem change_of_spam {pubkey : String} {hubId : String}
    (hdb : s'.db = reportSpam s.db hubId c pubkey) (hanswers : answers s e = []) :
    Change callId s e s' := by
  have hnone : answersTo callId (answers s e) = [] := by rw [hanswers, answersTo_nil]
  rw [reportSpam] at hdb
  rcases updateActive_cases s.db c (fun row => row.hubId = some hubId)
    (fun row => { row with status := .spam, reportedBy := some pubkey }) with
    h | ⟨row, hrow, -, h⟩
  · rw [h] at hdb
    exact .same hnone (by rw [hdb]) (by rw [hdb])
  · rw [h] at hdb
    by_cases hc : callId = c
    · refine .spam hnone (row.status, row.answeredBy) ?_ ?_ (by rw [hdb]; rfl)
      · rw [hc, activeView, hrow, Option.map_some]
      · rw [hdb, activeView_update, if_pos hc]
    · refine .same hnone ?_ (by rw [hdb]; rfl)
      rw [hdb, activeView_update, if_neg hc]

/-- A step that leaves both tables of calls as they are. -/
theorem change_of_eq (ha : s'.db.activeCalls = s.db.activeCalls)
    (hr : s'.db.callRecords = s.db.callRecords) (hanswers : answers s e = []) :
    Change callId s e s' :=
  .same (by rw [hanswers, answersTo_nil]) (by rw [activeView, ha, activeView])
    (by rw [recordView, hr, recordView])

theorem begin_db {task : Nat} {t : Task} (h : s.begin task t = some s') : s'.db = s.db := by
  rw [System.begin] at h
  cases htask : s.tasks task with
  | some _ => rw [htask] at h; cases h
  | none =>
    rw [htask] at h
    exact Option.some.inj h ▸ rfl

theorem change_of_end {hubId content : String} {envelopes : List String} {now : Int}
    (h : step s (.endCall hubId c content envelopes now) = some s') :
    Change callId s (.endCall hubId c content envelopes now) s' := by
  rw [step, endCall] at h
  cases hcall : (s.db.activeCalls c).filter fun row => row.hubId = some hubId with
  | none =>
    simp only [hcall, Option.some.injEq] at h
    exact change_of_eq (by rw [h]) (by rw [h]) rfl
  | some call =>
    cases hrecord : s.db.callRecords c with
    | some _ =>
      simp only [hcall, hrecord, Option.some.injEq] at h
      exact change_of_eq (by rw [h]) (by rw [h]) rfl
    | none =>
      simp only [hcall, hrecord, Option.some.injEq] at h
      obtain ⟨hrow, hhub⟩ := Option.filter_eq_some_iff.mp hcall
      subst h
      by_cases hc : callId = c
      · subst hc
        refine .ended rfl hubId content envelopes now rfl (fun row hrow' => ?_)
          (call.status, call.answeredBy) ?_ ?_ ?_ ?_
        · obtain rfl := Option.some.inj (hrow.symm.trans hrow')
          exact of_decide_eq_true hhub
        · rw [activeView, hrow, Option.map_some]
        · rw [recordView, hrecord, Option.map_none]
        · simp only [activeView, Function.update_self, Option.map_none]
        · simp only [recordView, Function.update_self, Option.map_some]
      · refine .same rfl ?_ ?_
        · simp only [activeView, Function.update_of_ne hc]
        · simp only [recordView, Function.update_of_ne hc]

theorem change_of_history {hubId : String} {s₁ : System} {db' : Db}
    (h : markVoicemailHistory s.db hubId c = .ok db') (hs : s₁.db = db')
    (hanswers : answers s e = []) : Change callId s e s₁ := by
  rw [markVoicemailHistory] at h
  cases hrow : (s.db.callRecords c).filter fun row => row.hubId = some hubId with
  | none => rw [hrow] at h; cases h
  | some row =>
    rw [hrow] at h
    obtain rfl := Except.ok.inj h
    refine .same (by rw [hanswers, answersTo_nil]) (by rw [hs]; rfl) ?_
    have hstored : s.db.callRecords c = some row := (Option.filter_eq_some_iff.mp hrow).1
    by_cases hc : callId = c
    · simp only [hs, recordView, hc, Function.update_self, hstored, Option.map_some]
    · simp only [hs, recordView, Function.update_of_ne hc]

theorem change_of_sweep {task : Nat} {now : Int} {stale : String → Option ActiveCall}
    (ht : s.tasks task = some (.sweep stale)) (hdb : s'.db = moveStale s.db now stale) :
    Change callId s (.moveStale task now) s' := by
  cases hcall : stale callId with
  | none =>
    refine .same rfl ?_ ?_
    · simp only [hdb, activeView, moveStale, hcall, Option.isSome_none, Bool.false_eq_true,
        if_false]
    · simp only [hdb, recordView, moveStale, hcall, Option.map_none, Option.or_none]
  | some call =>
    refine .swept rfl task now stale rfl ht call hcall ?_ ?_
    · simp only [hdb, activeView, moveStale, hcall, Option.isSome_some, if_true, Option.map_none]
    · simp only [hdb, recordView, moveStale, hcall, Option.map_some]
      cases s.db.callRecords callId <;> rfl

/-- **What a step does to a call.** -/
theorem step_view (callId : String) (h : step s e = some s') : Change callId s e s' := by
  cases e with
  | answerCall hubId c pubkey now =>
    obtain rfl := Option.some.inj h
    refine change_of_answer pubkey none rfl rfl (fun row hrow => ?_) fun _ => ⟨rfl, rfl⟩
    simp only [Bool.and_eq_true, decide_eq_true_eq] at hrow
    exact hrow.1.2
  | createCallToken token callSid volunteerPubkey hubId now =>
    rw [step] at h
    cases hissued : s.issued token with
    | some _ => rw [hissued] at h; cases h
    | none =>
      rw [hissued] at h
      obtain rfl := Option.some.inj h
      exact change_of_eq rfl rfl rfl
  | selectToken task token now =>
    rw [step] at h
    cases hrow : selectToken s.db token now with
    | none =>
      rw [hrow] at h
      obtain rfl := Option.some.inj h
      exact change_of_eq rfl rfl rfl
    | some row =>
      rw [hrow] at h
      exact change_of_eq (by rw [begin_db h]) (by rw [begin_db h]) rfl
  | claimCall task now =>
    rw [step] at h
    rcases htask : s.tasks task with _ | _ | ⟨token, row⟩ | _ <;> rw [htask] at h
    all_goals try cases h
    refine change_of_answer row.volunteerPubkey (some token) rfl
      (by simp only [answers, htask]; rfl) (fun call hcall => ?_) fun _ => ⟨rfl, rfl⟩
    simp only [Bool.and_eq_true, decide_eq_true_eq] at hcall
    exact hcall.2
  | endCall hubId c content envelopes now => exact change_of_end h
  | markVoicemail task hubId c =>
    rw [step] at h
    rcases hmark : markVoicemailActive s.db hubId c with ⟨db', _ | row⟩ <;> rw [hmark] at h
    · exact change_of_eq (by rw [begin_db h]) (by rw [begin_db h]) rfl
    · obtain rfl := Option.some.inj h
      have hdb : db' = (updateActive s.db c (fun row => row.hubId = some hubId)
          fun row => { row with hasVoicemail := some true }).1 := (congrArg Prod.fst hmark).symm
      exact change_of_keep hdb (fun _ => ⟨rfl, rfl⟩) rfl
  | markVoicemailHistory task =>
    rw [step] at h
    rcases htask : s.tasks task with _ | _ | _ | ⟨hubId, c⟩ <;> rw [htask] at h
    all_goals try cases h
    simp only at h
    cases hmark : markVoicemailHistory s.db hubId c with
    | error err =>
      rw [hmark] at h
      obtain rfl := Option.some.inj h
      exact change_of_eq rfl rfl rfl
    | ok db' =>
      rw [hmark] at h
      obtain rfl := Option.some.inj h
      exact change_of_history hmark rfl rfl
  | updateMetadata hubId c data =>
    obtain rfl := Option.some.inj h
    exact change_of_keep rfl (fun _ => ⟨rfl, rfl⟩) rfl
  | reportSpam hubId c pubkey =>
    obtain rfl := Option.some.inj h
    exact change_of_spam rfl rfl
  | selectActive task hubId now => exact change_of_eq (by rw [begin_db h]) (by rw [begin_db h]) rfl
  | moveStale task now =>
    rw [step] at h
    rcases htask : s.tasks task with _ | stale | _ | _ <;> rw [htask] at h
    all_goals try cases h
    exact change_of_sweep htask rfl

end Views

end Llamenos.Worker.Calls

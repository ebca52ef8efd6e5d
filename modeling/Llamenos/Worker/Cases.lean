import Llamenos.Lib.Counters
import Llamenos.Lib.Runs

/-!
# Records, events and what is linked to them

`CasesService` of `apps/worker/services/cases.ts` over the tables of
`apps/worker/db/schema/cases.ts`: the records, the events, the links between them, to contacts and
to reports, the interactions and the evidence. Records and events carry counters of the rows that
name them.

Of the columns, those are kept that the operations read, and the counters. Times are left out, but
for `closedAt`. An operation runs to its end before the next one begins, and no statement fails but
by a unique index. What is written before a statement fails stays written, unless in a transaction.
-/

namespace Llamenos.Worker.Cases

open Llamenos.Lib.Counters

/-! ## The tables -/

/-- A row of `case_records`. -/
structure CaseRecord where
  id : String
  hubId : Option String
  entityTypeId : Option String
  caseNumber : Option String
  statusHash : String
  contactCount : Nat := 0
  interactionCount : Nat := 0
  fileCount : Nat := 0
  reportCount : Nat := 0
  eventIds : List String := []
  reportIds : List String := []
  parentRecordId : Option String := none
  mergedIntoId : Option String := none
  closedAt : Option Int := none

/-- A row of `events`. -/
structure EventRow where
  id : String
  hubId : Option String
  entityTypeId : Option String
  caseNumber : Option String
  parentEventId : Option String
  statusHash : String
  caseCount : Nat := 0
  reportCount : Nat := 0
  subEventCount : Nat := 0

/-- A row of `case_contacts`, by its primary key. -/
structure CaseContact where
  caseId : String
  contactId : String
  deriving DecidableEq

/-- A row of `case_events`. -/
structure CaseEvent where
  caseId : String
  eventId : String
  deriving DecidableEq

/-- A row of `report_events`. -/
structure ReportEvent where
  reportId : String
  eventId : String
  deriving DecidableEq

/-- A row of `report_cases`. -/
structure ReportCase where
  reportId : String
  caseId : String
  deriving DecidableEq

/-- A row of `case_interactions`. -/
structure Interaction where
  id : String
  caseId : String
  interactionType : String
  sourceId : Option String := none
  previousStatusHash : Option String := none
  newStatusHash : Option String := none

/-- A row of `evidence`. -/
structure Evidence where
  id : String
  caseId : String
  fileId : String

/-- A row of `entity_type_definitions`. -/
structure EntityType where
  id : String
  category : String

/-- A row of `conversations`, with the `conversionStatus` of its metadata. -/
structure Conversation where
  id : String
  conversionStatus : Option String := none

structure Db where
  caseRecords : List CaseRecord := []
  events : List EventRow := []
  caseContacts : List CaseContact := []
  caseEvents : List CaseEvent := []
  reportEvents : List ReportEvent := []
  reportCases : List ReportCase := []
  caseInteractions : List Interaction := []
  evidence : List Evidence := []
  entityTypeDefinitions : List EntityType := []
  conversations : List Conversation := []

/-- A `ServiceError`, or what the database throws where a unique index is violated. -/
inductive CasesError where
  | service (status : Nat) (message : String)
  | unique (index : String)
  deriving DecidableEq

/-- What an operation makes of the database, and what it returns or throws. -/
abbrev Result (α : Type) := Db × Except CasesError α

/-- `throw new ServiceError(404, message)`. -/
def notFound {α : Type} (db : Db) (message : String) : Result α :=
  (db, .error (.service 404 message))

def Db.record (db : Db) (id : String) : Option CaseRecord :=
  db.caseRecords.find? fun record => record.id = id

def Db.recordOfHub (db : Db) (id hubId : String) : Option CaseRecord :=
  db.caseRecords.find? fun record => record.id = id && record.hubId = some hubId

def Db.event (db : Db) (id : String) : Option EventRow :=
  db.events.find? fun event => event.id = id

/-- `case_records_hub_id_case_number_idx` is violated by one more record. -/
def Db.numberTaken (db : Db) (hubId : String) (caseNumber : Option String) : Bool :=
  caseNumber.isSome &&
    db.caseRecords.any fun record =>
      record.hubId = some hubId && record.caseNumber = caseNumber

/-- `UPDATE case_records SET … WHERE id = …`. -/
def Db.updateRecord (db : Db) (id : String) (set : CaseRecord → CaseRecord) : Db :=
  { db with caseRecords := update CaseRecord.id db.caseRecords id set }

/-- `UPDATE events SET … WHERE id = …`. -/
def Db.updateEvent (db : Db) (id : String) (set : EventRow → EventRow) : Db :=
  { db with events := update EventRow.id db.events id set }

/-! ## Records -/

structure CreateInput where
  hubId : String
  entityTypeId : Option String := none
  caseNumber : Option String := none
  statusHash : String
  contactLinks : List String := []
  parentRecordId : Option String := none

/-- The row that `create` inserts. -/
def CreateInput.record (input : CreateInput) (id : String) : CaseRecord where
  id := id
  hubId := some input.hubId
  entityTypeId := input.entityTypeId
  caseNumber := input.caseNumber
  statusHash := input.statusHash
  parentRecordId := input.parentRecordId

/-- The rows that `create` inserts for the contacts. -/
def CreateInput.links (input : CreateInput) (id : String) : List CaseContact :=
  input.contactLinks.map fun contactId => { caseId := id, contactId }

def create (db : Db) (id : String) (input : CreateInput) : Result CaseRecord :=
  let record := input.record id
  if db.numberTaken input.hubId input.caseNumber then
    (db, .error (.unique "case_records_hub_id_case_number_idx"))
  else
    let inserted := { db with caseRecords := db.caseRecords ++ [record] }
    if input.contactLinks = [] then (inserted, .ok record)
    else if ¬ (db.caseContacts ++ input.links id).Nodup then
      (inserted, .error (.unique "case_contacts_case_id_contact_id_pk"))
    else
      let contactCount := input.contactLinks.length
      ({ inserted with caseContacts := db.caseContacts ++ input.links id }.updateRecord id
          fun record => { record with contactCount },
        .ok { record with contactCount })

structure UpdateInput where
  statusHash : Option String := none
  parentRecordId : Option String := none
  closedAt : Option Int := none

/-- `values` of `update`, but for the interaction count. -/
def UpdateInput.values (input : UpdateInput) (record : CaseRecord) : CaseRecord :=
  { record with
    statusHash := input.statusHash.getD record.statusHash
    parentRecordId := input.parentRecordId.or record.parentRecordId
    closedAt := input.closedAt.or record.closedAt }

/-- Whether the new status is one, and another one. -/
def UpdateInput.newStatus (input : UpdateInput) (record : CaseRecord) : Option String :=
  input.statusHash.filter fun status => status ≠ "" && status ≠ record.statusHash

/-- `update`; `interactionId` is the id of the interaction, if there is one. -/
def updateCase (db : Db) (id interactionId : String) (input : UpdateInput) :
    Result (Option CaseRecord) :=
  match db.record id with
  | none => notFound db "Record not found"
  | some record =>
    let updated := match input.newStatus record with
      | none => db.updateRecord id input.values
      | some status =>
        let interaction : Interaction :=
          { id := interactionId
            caseId := id
            interactionType := "status_change"
            previousStatusHash := some record.statusHash
            newStatusHash := some status }
        { db with caseInteractions := db.caseInteractions ++ [interaction] }.updateRecord id
          fun record =>
            { input.values record with interactionCount := record.interactionCount + 1 }
    (updated, .ok (updated.record id))

/-- `caseCount: GREATEST(0, caseCount - 1)`. -/
def EventRow.fewerCases (event : EventRow) : EventRow :=
  { event with caseCount := event.caseCount - 1 }

/-- One event after the other loses a case. -/
def dropCases (events : List EventRow) (eventIds : List String) : List EventRow :=
  eventIds.foldl (fun events eventId => update EventRow.id events eventId EventRow.fewerCases)
    events

def delete (db : Db) (id : String) : Result Unit :=
  match db.record id with
  | none => notFound db "Record not found"
  | some _ =>
    let eventIds := (db.caseEvents.filter fun link => link.caseId = id).map CaseEvent.eventId
    ({ db with
        events := dropCases db.events eventIds
        caseContacts := db.caseContacts.filter fun link => link.caseId ≠ id
        caseEvents := db.caseEvents.filter fun link => link.caseId ≠ id
        reportCases := db.reportCases.filter fun link => link.caseId ≠ id
        caseInteractions := db.caseInteractions.filter fun row => row.caseId ≠ id
        evidence := db.evidence.filter fun row => row.caseId ≠ id
        caseRecords := db.caseRecords.filter fun record => record.id ≠ id },
      .ok ())

structure MergeRecordsResponse where
  primaryId : String
  secondaryId : String
  relinkedContacts : Nat
  relinkedInteractions : Nat
  relinkedEvidence : Nat
  deriving DecidableEq

/-- `UPDATE case_contacts SET case_id = … WHERE case_id = …`. -/
def relinkContacts (links : List CaseContact) (primaryId secondaryId : String) :
    List CaseContact :=
  update CaseContact.caseId links secondaryId fun link => { link with caseId := primaryId }

def relinkReports (links : List ReportCase) (primaryId secondaryId : String) : List ReportCase :=
  update ReportCase.caseId links secondaryId fun link => { link with caseId := primaryId }

def relinkInteractions (rows : List Interaction) (primaryId secondaryId : String) :
    List Interaction :=
  update Interaction.caseId rows secondaryId fun row => { row with caseId := primaryId }

def relinkEvidence (rows : List Evidence) (primaryId secondaryId : String) : List Evidence :=
  update Evidence.caseId rows secondaryId fun row => { row with caseId := primaryId }

/-- The transaction of `mergeRecords`, which nothing has failed. -/
def merged (db : Db) (primaryId secondaryId : String) (now : Int)
    (contacts interactions evidence : Nat) : Db :=
  (({ db with
      caseContacts := relinkContacts db.caseContacts primaryId secondaryId
      caseInteractions := relinkInteractions db.caseInteractions primaryId secondaryId
      evidence := relinkEvidence db.evidence primaryId secondaryId
      reportCases := relinkReports db.reportCases primaryId secondaryId }.updateRecord secondaryId
    fun record => { record with mergedIntoId := some primaryId, closedAt := some now }).updateRecord
    primaryId fun record =>
      { record with
        contactCount := record.contactCount + contacts
        interactionCount := record.interactionCount + interactions
        fileCount := record.fileCount + evidence })

def mergeRecords (db : Db) (hubId primaryId secondaryId : String) (now : Int) :
    Result MergeRecordsResponse :=
  match db.recordOfHub primaryId hubId, db.recordOfHub secondaryId hubId with
  | none, _ => notFound db "primary record not found"
  | some _, none => notFound db "secondary record not found"
  | some primary, some secondary =>
    if secondary.hubId ≠ primary.hubId then
      (db, .error (.service 400 "cross-hub merge not permitted"))
    else if ¬ (relinkContacts db.caseContacts primaryId secondaryId).Nodup then
      (db, .error (.unique "case_contacts_case_id_contact_id_pk"))
    else if ¬ (relinkReports db.reportCases primaryId secondaryId).Nodup then
      (db, .error (.unique "report_cases_report_id_case_id_pk"))
    else
      let relinkedContacts := db.caseContacts.countP fun link => link.caseId = secondaryId
      let relinkedInteractions := db.caseInteractions.countP fun row => row.caseId = secondaryId
      let relinkedEvidence := db.evidence.countP fun row => row.caseId = secondaryId
      (merged db primaryId secondaryId now relinkedContacts relinkedInteractions relinkedEvidence,
        .ok { primaryId, secondaryId, relinkedContacts, relinkedInteractions, relinkedEvidence })

/-! ## Contacts -/

def linkContact (db : Db) (caseId contactId : String) : Result CaseContact :=
  match db.record caseId with
  | none => notFound db "Record not found"
  | some _ =>
    let link : CaseContact := { caseId, contactId }
    if link ∈ db.caseContacts then (db, .error (.unique "case_contacts_case_id_contact_id_pk"))
    else
      ({ db with caseContacts := db.caseContacts ++ [link] }.updateRecord caseId
          fun record => { record with contactCount := record.contactCount + 1 },
        .ok link)

def unlinkContact (db : Db) (caseId contactId : String) : Result Unit :=
  match db.record caseId with
  | none => notFound db "Record not found"
  | some _ =>
    let link : CaseContact := { caseId, contactId }
    if link ∉ db.caseContacts then notFound db "Contact link not found"
    else
      ({ db with caseContacts := db.caseContacts.filter fun other => other ≠ link }.updateRecord
          caseId fun record => { record with contactCount := record.contactCount - 1 },
        .ok ())

/-! ## Events -/

/-- Whether an optional id is there, and not empty. -/
def given (id : Option String) : Option String := id.filter fun id => id ≠ ""

structure CreateEventInput where
  hubId : String
  entityTypeId : Option String := none
  caseNumber : Option String := none
  parentEventId : Option String := none
  statusHash : String

def EventRow.moreSubEvents (event : EventRow) : EventRow :=
  { event with subEventCount := event.subEventCount + 1 }

def EventRow.fewerSubEvents (event : EventRow) : EventRow :=
  { event with subEventCount := event.subEventCount - 1 }

/-- The counter of the parent changes, if one is given. -/
def adjustParent (events : List EventRow) (parentEventId : Option String)
    (set : EventRow → EventRow) : List EventRow :=
  match given parentEventId with
  | none => events
  | some parent => update EventRow.id events parent set

def createEvent (db : Db) (id : String) (input : CreateEventInput) : Result EventRow :=
  let event : EventRow :=
    { id
      hubId := some input.hubId
      entityTypeId := input.entityTypeId
      caseNumber := input.caseNumber
      parentEventId := input.parentEventId
      statusHash := input.statusHash }
  ({ db with
      events := adjustParent (db.events ++ [event]) input.parentEventId EventRow.moreSubEvents },
    .ok event)

structure UpdateEventInput where
  parentEventId : Option String := none
  statusHash : Option String := none

/-- The parent that `updateEvent` gives the event, if another one than it has. -/
def UpdateEventInput.newParent (input : UpdateEventInput) (event : EventRow) : Option String :=
  input.parentEventId.filter fun parent => some parent ≠ event.parentEventId

/-- `values` of `updateEvent`. -/
def UpdateEventInput.values (input : UpdateEventInput) (newParent : Option String)
    (event : EventRow) : EventRow :=
  { event with
    statusHash := input.statusHash.getD event.statusHash
    parentEventId := newParent.or event.parentEventId }

def updateEvent (db : Db) (id : String) (input : UpdateEventInput) : Result (Option EventRow) :=
  match db.event id with
  | none => notFound db "Event not found"
  | some event =>
    let newParent := input.newParent event
    let events := match newParent with
      | none => db.events
      | some parent =>
        adjustParent (adjustParent db.events event.parentEventId EventRow.fewerSubEvents)
          (some parent) EventRow.moreSubEvents
    let updated := { db with events }.updateEvent id (input.values newParent)
    (updated, .ok (updated.event id))

/-- `SET parent_event_id = NULL WHERE parent_event_id = …`. -/
def clearParent (events : List EventRow) (id : String) : List EventRow :=
  events.map fun event =>
    if event.parentEventId = some id then { event with parentEventId := none } else event

/-- `eventIds: array_remove(eventIds, …)`. -/
def CaseRecord.withoutEvent (eventId : String) (record : CaseRecord) : CaseRecord :=
  { record with eventIds := record.eventIds.filter fun id => id ≠ eventId }

/-- One record after the other loses the event. -/
def dropEvent (records : List CaseRecord) (caseIds : List String) (eventId : String) :
    List CaseRecord :=
  caseIds.foldl
    (fun records caseId => update CaseRecord.id records caseId (CaseRecord.withoutEvent eventId))
    records

def deleteEvent (db : Db) (id : String) : Result Unit :=
  match db.event id with
  | none => notFound db "Event not found"
  | some event =>
    let caseIds := (db.caseEvents.filter fun link => link.eventId = id).map CaseEvent.caseId
    ({ db with
        events := (clearParent
          (adjustParent db.events event.parentEventId EventRow.fewerSubEvents) id).filter
          fun event => event.id ≠ id
        caseRecords := dropEvent db.caseRecords caseIds id
        caseEvents := db.caseEvents.filter fun link => link.eventId ≠ id
        reportEvents := db.reportEvents.filter fun link => link.eventId ≠ id },
      .ok ())

inductive EventTarget where
  | legacy
  | record

/-- The category of the record's entity type. -/
def Db.category (db : Db) (record : CaseRecord) : Option String :=
  record.entityTypeId.bind fun entityTypeId =>
    (db.entityTypeDefinitions.find? fun entityType => entityType.id = entityTypeId).map
      EntityType.category

/-- `resolveEventTarget`; nothing, where it throws. -/
def resolveEventTarget (db : Db) (eventId hubId : String) : Option EventTarget :=
  if (db.event eventId).any fun event => event.hubId.getD "" = hubId then some .legacy
  else if (db.record eventId).any fun record =>
      db.category record = some "event" && record.hubId.getD "" = hubId then some .record
  else none

/-- `adjustEventReportCount`, with what becomes of the count. -/
def adjustEventReportCount (db : Db) (target : EventTarget) (eventId : String)
    (delta : Nat → Nat) : Db :=
  match target with
  | .legacy =>
    db.updateEvent eventId fun event => { event with reportCount := delta event.reportCount }
  | .record =>
    db.updateRecord eventId fun record => { record with reportCount := delta record.reportCount }

/-- The case count of an event that is no record. -/
def adjustCaseCount (db : Db) (target : EventTarget) (eventId : String) (delta : Nat → Nat) : Db :=
  match target with
  | .legacy => db.updateEvent eventId fun event => { event with caseCount := delta event.caseCount }
  | .record => db

def linkEvent (db : Db) (caseId eventId hubId : String) : Result CaseEvent :=
  match db.recordOfHub caseId hubId, resolveEventTarget db eventId hubId with
  | none, _ => notFound db "Record not found"
  | some _, none => notFound db "Event not found"
  | some _, some target =>
    let link : CaseEvent := { caseId, eventId }
    if link ∈ db.caseEvents then (db, .error (.service 409 "Already linked"))
    else
      let linked := { db with caseEvents := db.caseEvents ++ [link] }
      ((adjustCaseCount linked target eventId (· + 1)).updateRecord caseId
          fun record => { record with eventIds := record.eventIds ++ [eventId] },
        .ok link)

def unlinkEvent (db : Db) (caseId eventId hubId : String) : Result Unit :=
  match resolveEventTarget db eventId hubId with
  | none => notFound db "Event not found"
  | some target =>
    let link : CaseEvent := { caseId, eventId }
    if link ∉ db.caseEvents then notFound db "Link not found"
    else
      let unlinked := { db with caseEvents := db.caseEvents.filter fun other => other ≠ link }
      ((adjustCaseCount unlinked target eventId (· - 1)).updateRecord caseId
          (CaseRecord.withoutEvent eventId),
        .ok ())

/-! ## Reports -/

def linkReportEvent (db : Db) (reportId eventId hubId : String) : Result ReportEvent :=
  match resolveEventTarget db eventId hubId with
  | none => notFound db "Event not found"
  | some target =>
    let link : ReportEvent := { reportId, eventId }
    if link ∈ db.reportEvents then (db, .error (.service 409 "Already linked"))
    else
      let linked := { db with reportEvents := db.reportEvents ++ [link] }
      (adjustEventReportCount linked target eventId (· + 1), .ok link)

def unlinkReportEvent (db : Db) (reportId eventId hubId : String) : Result Unit :=
  match resolveEventTarget db eventId hubId with
  | none => notFound db "Event not found"
  | some target =>
    let link : ReportEvent := { reportId, eventId }
    if link ∉ db.reportEvents then notFound db "Link not found"
    else
      let unlinked := { db with reportEvents := db.reportEvents.filter fun other => other ≠ link }
      (adjustEventReportCount unlinked target eventId (· - 1), .ok ())

def linkReportCase (db : Db) (caseId reportId : String) : Result ReportCase :=
  match db.record caseId with
  | none => notFound db "Record not found"
  | some _ =>
    let link : ReportCase := { reportId, caseId }
    if link ∈ db.reportCases then
      (db, .error (.service 409 "Report already linked to this case"))
    else
      ({ db with reportCases := db.reportCases ++ [link] }.updateRecord caseId fun record =>
          { record with
            reportCount := record.reportCount + 1
            reportIds := record.reportIds ++ [reportId] },
        .ok link)

def unlinkReportCase (db : Db) (caseId reportId : String) : Result Unit :=
  let link : ReportCase := { reportId, caseId }
  if link ∉ db.reportCases then notFound db "Link not found"
  else
    ({ db with reportCases := db.reportCases.filter fun other => other ≠ link }.updateRecord caseId
        fun record =>
          { record with
            reportCount := record.reportCount - 1
            reportIds := record.reportIds.filter fun id => id ≠ reportId },
      .ok ())

structure ConvertInput where
  reportId : String
  entityTypeId : String
  hubId : String
  caseNumber : Option String := none
  defaultStatusHash : Option String := none

structure ConvertFromReportResponse where
  recordId : String
  reportId : String
  entityTypeId : String
  caseNumber : Option String

/-- The record that `convertFromReport` makes. -/
def ConvertInput.record (input : ConvertInput) (id : String) : CaseRecord where
  id := id
  hubId := some input.hubId
  entityTypeId := some input.entityTypeId
  caseNumber := input.caseNumber
  statusHash := input.defaultStatusHash.getD "pending"
  reportCount := 1
  reportIds := [input.reportId]

/-- `convertFromReport`; the transaction leaves nothing behind where it fails. -/
def convertFromReport (db : Db) (id interactionId : String) (input : ConvertInput) :
    Result ConvertFromReportResponse :=
  if ¬ db.conversations.any fun conversation => conversation.id = input.reportId then
    notFound db ("Report not found: " ++ input.reportId)
  else if db.numberTaken input.hubId input.caseNumber then
    (db, .error (.unique "case_records_hub_id_case_number_idx"))
  else
    ({ db with
        caseRecords := db.caseRecords ++ [input.record id]
        reportCases := db.reportCases ++ [{ reportId := input.reportId, caseId := id }]
        conversations := update Conversation.id db.conversations input.reportId
          fun conversation => { conversation with conversionStatus := some "completed" }
        caseInteractions := db.caseInteractions ++
          [{ id := interactionId
             caseId := id
             interactionType := "report_conversion"
             sourceId := some input.reportId }] },
      .ok
        { recordId := id
          reportId := input.reportId
          entityTypeId := input.entityTypeId
          caseNumber := input.caseNumber })

/-! ## Interactions and evidence -/

structure CreateInteractionInput where
  interactionType : String
  sourceId : Option String := none
  previousStatusHash : Option String := none
  newStatusHash : Option String := none

def createInteraction (db : Db) (id caseId : String) (input : CreateInteractionInput) :
    Result Interaction :=
  match db.record caseId with
  | none => notFound db "Record not found"
  | some _ =>
    let interaction : Interaction :=
      { id
        caseId
        interactionType := input.interactionType
        sourceId := input.sourceId
        previousStatusHash := input.previousStatusHash
        newStatusHash := input.newStatusHash }
    ({ db with caseInteractions := db.caseInteractions ++ [interaction] }.updateRecord caseId
        fun record => { record with interactionCount := record.interactionCount + 1 },
      .ok interaction)

def deleteInteraction (db : Db) (caseId interactionId : String) : Result Unit :=
  if ¬ db.caseInteractions.any fun row => row.id = interactionId && row.caseId = caseId then
    notFound db "Interaction not found"
  else
    ({ db with
        caseInteractions := db.caseInteractions.filter fun row => row.id ≠ interactionId
        }.updateRecord caseId
        fun record => { record with interactionCount := record.interactionCount - 1 },
      .ok ())

def createEvidence (db : Db) (id caseId fileId : String) : Result Evidence :=
  match db.record caseId with
  | none => notFound db "Record not found"
  | some _ =>
    let row : Evidence := { id, caseId, fileId }
    ({ db with evidence := db.evidence ++ [row] }.updateRecord caseId
        fun record => { record with fileCount := record.fileCount + 1 },
      .ok row)

/-! ## Runs -/

/-- An operation, with the ids it draws; `others` is what other services make of the tables that
this one only reads, or writes no count of. -/
inductive Op where
  | create (id : String) (input : CreateInput)
  | update (id interactionId : String) (input : UpdateInput)
  | delete (id : String)
  | mergeRecords (hubId primaryId secondaryId : String) (now : Int)
  | linkContact (caseId contactId : String)
  | unlinkContact (caseId contactId : String)
  | createEvent (id : String) (input : CreateEventInput)
  | updateEvent (id : String) (input : UpdateEventInput)
  | deleteEvent (id : String)
  | linkEvent (caseId eventId hubId : String)
  | unlinkEvent (caseId eventId hubId : String)
  | linkReportEvent (reportId eventId hubId : String)
  | unlinkReportEvent (reportId eventId hubId : String)
  | linkReportCase (caseId reportId : String)
  | unlinkReportCase (caseId reportId : String)
  | convertFromReport (id interactionId : String) (input : ConvertInput)
  | createInteraction (id caseId : String) (input : CreateInteractionInput)
  | deleteInteraction (caseId interactionId : String)
  | createEvidence (id caseId fileId : String)
  | others (entityTypes : List EntityType) (conversations : List Conversation)

/-- The ids that the operation draws. -/
def Op.drawn : Op → List String
  | .create id _ | .createEvent id _ | .createInteraction id _ _ | .createEvidence id _ _ => [id]
  | .update _ interactionId _ => [interactionId]
  | .convertFromReport id interactionId _ => [id, interactionId]
  | _ => []

/-- The ids of the rows, and all that the rows name a record or an event by. -/
def Db.ids (db : Db) : List String :=
  db.caseRecords.map CaseRecord.id ++ db.events.map EventRow.id ++
    db.events.filterMap EventRow.parentEventId ++ db.caseContacts.map CaseContact.caseId ++
    db.caseEvents.map CaseEvent.eventId ++ db.reportEvents.map ReportEvent.eventId ++
    db.reportCases.map ReportCase.caseId ++ db.caseInteractions.map Interaction.id ++
    db.caseInteractions.map Interaction.caseId ++ db.evidence.map Evidence.caseId

/-- `crypto.randomUUID()` has given an id that is not empty, and that nothing has or names. -/
def Db.Fresh (db : Db) (id : String) : Prop := id ≠ "" ∧ id ∉ db.ids

instance (db : Db) : DecidablePred db.Fresh := fun _ => inferInstanceAs (Decidable (_ ∧ _))

def call (db : Db) : Op → Db
  | .create id input => (create db id input).1
  | .update id interactionId input => (updateCase db id interactionId input).1
  | .delete id => (delete db id).1
  | .mergeRecords hubId primaryId secondaryId now =>
    (mergeRecords db hubId primaryId secondaryId now).1
  | .linkContact caseId contactId => (linkContact db caseId contactId).1
  | .unlinkContact caseId contactId => (unlinkContact db caseId contactId).1
  | .createEvent id input => (createEvent db id input).1
  | .updateEvent id input => (updateEvent db id input).1
  | .deleteEvent id => (deleteEvent db id).1
  | .linkEvent caseId eventId hubId => (linkEvent db caseId eventId hubId).1
  | .unlinkEvent caseId eventId hubId => (unlinkEvent db caseId eventId hubId).1
  | .linkReportEvent reportId eventId hubId => (linkReportEvent db reportId eventId hubId).1
  | .unlinkReportEvent reportId eventId hubId => (unlinkReportEvent db reportId eventId hubId).1
  | .linkReportCase caseId reportId => (linkReportCase db caseId reportId).1
  | .unlinkReportCase caseId reportId => (unlinkReportCase db caseId reportId).1
  | .convertFromReport id interactionId input => (convertFromReport db id interactionId input).1
  | .createInteraction id caseId input => (createInteraction db id caseId input).1
  | .deleteInteraction caseId interactionId => (deleteInteraction db caseId interactionId).1
  | .createEvidence id caseId fileId => (createEvidence db id caseId fileId).1
  | .others entityTypes conversations =>
    { db with entityTypeDefinitions := entityTypes, conversations }

/-- An operation happens if the ids it draws are fresh. -/
def step (db : Db) (op : Op) : Option Db :=
  if ∀ id ∈ op.drawn, db.Fresh id then some (call db op) else none

end Llamenos.Worker.Cases

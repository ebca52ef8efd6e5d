import Llamenos.Worker.Cases

/-!
# Counters of records and events

A record counts its contacts, interactions, files and reports, an event its cases, reports and
sub-events. Each operation changes the counters beside the rows that they count. All but two do so
alike: `mergeRecords` moves rows from a record whose counters it leaves, and the links to reports
without any counter; `convertFromReport` makes a record with one interaction, and counts none.

Results:
* `call_sound`: what an operation keeps of the tables.
* `mergeRecords_tallied_iff`, `convertFromReport_tallied_iff`: when these two keep the counters
  right.
* `call_tallied_iff`: an operation keeps the counters right exactly if it meets `Keeps`.
* `tallied_iff_along`: **in a run, the counters are right in every state exactly if all its
  operations do**.
* `merged_miscounts`: a merge after which they are not.
-/

namespace Llamenos.Worker.Cases

open Llamenos.Lib Llamenos.Lib.Counters

variable {db db' : Db}

/-! ## The property -/

/-- Every counter is the number of rows that name its row. The events that are records have the
reports that are linked to them counted with the others. -/
structure Tallied (db : Db) : Prop where
  contacts : Counted CaseRecord.id CaseRecord.contactCount db.caseRecords
    (db.caseContacts.map CaseContact.caseId)
  interactions : Counted CaseRecord.id CaseRecord.interactionCount db.caseRecords
    (db.caseInteractions.map Interaction.caseId)
  files : Counted CaseRecord.id CaseRecord.fileCount db.caseRecords
    (db.evidence.map Evidence.caseId)
  reports : Counted CaseRecord.id CaseRecord.reportCount db.caseRecords
    (db.reportCases.map ReportCase.caseId ++ db.reportEvents.map ReportEvent.eventId)
  cases : Counted EventRow.id EventRow.caseCount db.events (db.caseEvents.map CaseEvent.eventId)
  eventReports : Counted EventRow.id EventRow.reportCount db.events
    (db.reportEvents.map ReportEvent.eventId)
  subEvents : Counted EventRow.id EventRow.subEventCount db.events
    (db.events.filterMap EventRow.parentEventId)

/-- What the primary keys say, and the ids that are drawn. -/
structure Sound (db : Db) : Prop where
  eventIds : (db.events.map EventRow.id).Nodup
  apart : (db.caseRecords.map CaseRecord.id).Disjoint (db.events.map EventRow.id)
  named : "" ∉ db.events.map EventRow.id
  contacts : db.caseContacts.Nodup
  caseEvents : db.caseEvents.Nodup
  reportEvents : db.reportEvents.Nodup
  reportCases : db.reportCases.Nodup
  interactionIds : (db.caseInteractions.map Interaction.id).Nodup

/-- A merge that finds both records moves nothing, or fails. -/
def MovesNothing (db : Db) (primaryId secondaryId : String) : Prop :=
  (∀ link ∈ db.caseContacts, link.caseId ≠ secondaryId) ∧
    (∀ row ∈ db.caseInteractions, row.caseId ≠ secondaryId) ∧
    (∀ row ∈ db.evidence, row.caseId ≠ secondaryId) ∧
    (primaryId ≠ secondaryId → ∀ link ∈ db.reportCases, link.caseId ≠ secondaryId)

/-- A primary key forbids the merge. -/
def Forbidden (db : Db) (primaryId secondaryId : String) : Prop :=
  ¬ (relinkContacts db.caseContacts primaryId secondaryId).Nodup ∨
    ¬ (relinkReports db.reportCases primaryId secondaryId).Nodup

/-- What an operation must be, to keep the counters right. -/
def Keeps (db : Db) : Op → Prop
  | .mergeRecords hubId primaryId secondaryId _ =>
    db.recordOfHub primaryId hubId = none ∨ db.recordOfHub secondaryId hubId = none ∨
      Forbidden db primaryId secondaryId ∨ MovesNothing db primaryId secondaryId
  | .convertFromReport _ _ input =>
    (∀ conversation ∈ db.conversations, conversation.id ≠ input.reportId) ∨
      db.numberTaken input.hubId input.caseNumber = true
  | _ => True

/-! ## What is found -/
variable {record : CaseRecord}

theorem record_spec {id : String} (h : db.record id = some record) :
    record ∈ db.caseRecords ∧ record.id = id :=
  ⟨List.mem_of_find?_eq_some h, by simpa using List.find?_some h⟩

theorem recordOfHub_spec {id hubId : String}
    (h : db.recordOfHub id hubId = some record) :
    record ∈ db.caseRecords ∧ record.id = id ∧ record.hubId = some hubId :=
  ⟨List.mem_of_find?_eq_some h, by simpa using List.find?_some h⟩

theorem event_spec {id : String} {event : EventRow} (h : db.event id = some event) :
    event ∈ db.events ∧ event.id = id :=
  ⟨List.mem_of_find?_eq_some h, by simpa using List.find?_some h⟩

/-- The id is of no row of the other kind. -/
def Resolved (db : Db) (eventId : String) : EventTarget → Prop
  | .legacy => ∀ record ∈ db.caseRecords, record.id ≠ eventId
  | .record => ∀ event ∈ db.events, event.id ≠ eventId

/-- An event is of the kind that it is resolved to, and of no other. -/
theorem resolve_spec (hdb : Sound db) {eventId hubId : String} {target : EventTarget}
    (h : resolveEventTarget db eventId hubId = some target) : Resolved db eventId target := by
  unfold resolveEventTarget at h
  split at h
  · rename_i hlegacy
    cases h
    intro record hrecord heq
    cases hevent : db.event eventId with
    | none => simp [hevent] at hlegacy
    | some event =>
      obtain ⟨hmem, hid⟩ := event_spec hevent
      refine hdb.apart (List.mem_map_of_mem hrecord) ?_
      rw [heq, ← hid]
      exact List.mem_map_of_mem hmem
  · split at h
    · rename_i hrecord
      cases h
      intro event hevent heq
      cases hfound : db.record eventId with
      | none => simp [hfound] at hrecord
      | some record =>
        obtain ⟨hmem, hid⟩ := record_spec hfound
        refine hdb.apart (List.mem_map_of_mem hmem) ?_
        rw [hid, ← heq]
        exact List.mem_map_of_mem hevent
    · cases h
variable {α : Type}

theorem nodup_snoc {rows : List α} (h : rows.Nodup) {row : α} (hrow : row ∉ rows) :
    (rows ++ [row]).Nodup := h.append (List.nodup_singleton row) (List.disjoint_singleton.mpr hrow)

/-! ## Rows that are set -/

theorem sound_updateRecord (hdb : Sound db) {id : String} {set : CaseRecord → CaseRecord}
    (hset : ∀ record, (set record).id = record.id) : Sound (db.updateRecord id set) :=
  { hdb with apart := (map_update CaseRecord.id db.caseRecords id hset).symm ▸ hdb.apart }

theorem sound_updateEvent (hdb : Sound db) {id : String} {set : EventRow → EventRow}
    (hset : ∀ event, (set event).id = event.id) : Sound (db.updateEvent id set) := by
  have hids : (db.updateEvent id set).events.map EventRow.id = db.events.map EventRow.id :=
    map_update EventRow.id db.events id hset
  exact { hdb with
    eventIds := hids.symm ▸ hdb.eventIds
    apart := hids.symm ▸ hdb.apart
    named := hids.symm ▸ hdb.named }

/-- The counters of a record. -/
def CaseRecord.counters (record : CaseRecord) : String × Nat × Nat × Nat × Nat :=
  (record.id, record.contactCount, record.interactionCount, record.fileCount, record.reportCount)

/-- The counters of an event, and what others count it by. -/
def EventRow.counters (event : EventRow) : String × Option String × Nat × Nat × Nat :=
  (event.id, event.parentEventId, event.caseCount, event.reportCount, event.subEventCount)

/-- What is known of every counter is known of one. -/
theorem map_of_counters {α β γ : Type} {rows rows' : List α} {counters : α → β} (f : β → γ)
    (h : rows'.map counters = rows.map counters) :
    rows'.map (fun row => f (counters row)) = rows.map fun row => f (counters row) := by
  have := congrArg (List.map f) h
  rwa [List.map_map, List.map_map] at this

/-- The records change, but no counter. -/
theorem tallied_records (hdb : Tallied db) {records : List CaseRecord}
    (hsame : records.map CaseRecord.counters = db.caseRecords.map CaseRecord.counters) :
    Tallied { db with caseRecords := records } :=
  { hdb with
    contacts := hdb.contacts.same (map_of_counters (fun c => (c.1, c.2.1)) hsame)
    interactions := hdb.interactions.same (map_of_counters (fun c => (c.1, c.2.2.1)) hsame)
    files := hdb.files.same (map_of_counters (fun c => (c.1, c.2.2.2.1)) hsame)
    reports := hdb.reports.same (map_of_counters (fun c => (c.1, c.2.2.2.2)) hsame) }

theorem tallied_updateRecord (hdb : Tallied db) {id : String} {set : CaseRecord → CaseRecord}
    (hset : ∀ record, (set record).counters = record.counters) : Tallied (db.updateRecord id set) :=
  tallied_records hdb (map_update CaseRecord.counters db.caseRecords id hset)

theorem filterMap_of_map {α β : Type} {rows rows' : List α} {f : α → Option β}
    (h : rows'.map f = rows.map f) : rows'.filterMap f = rows.filterMap f := by
  have := congrArg (List.filterMap id) h
  rwa [List.filterMap_map, List.filterMap_map] at this

/-! ## Ids that are drawn -/

/-- Nothing has the id, and nothing names it. -/
structure Unused (db : Db) (id : String) : Prop where
  nonempty : id ≠ ""
  records : id ∉ db.caseRecords.map CaseRecord.id
  events : id ∉ db.events.map EventRow.id
  parents : id ∉ db.events.filterMap EventRow.parentEventId
  contacts : id ∉ db.caseContacts.map CaseContact.caseId
  caseEvents : id ∉ db.caseEvents.map CaseEvent.eventId
  reportEvents : id ∉ db.reportEvents.map ReportEvent.eventId
  reportCases : id ∉ db.reportCases.map ReportCase.caseId
  interactions : id ∉ db.caseInteractions.map Interaction.id
  interactionCases : id ∉ db.caseInteractions.map Interaction.caseId
  evidence : id ∉ db.evidence.map Evidence.caseId

theorem unused_of_fresh {id : String} (h : db.Fresh id) : Unused db id := by
  obtain ⟨hne, hids⟩ := h
  simp only [Db.ids, List.mem_append, not_or] at hids
  obtain ⟨⟨⟨⟨⟨⟨⟨⟨⟨hrecords, hevents⟩, hparents⟩, hcontacts⟩, hcaseEvents⟩, hreportEvents⟩,
    hreportCases⟩, hinteractions⟩, hinteractionCases⟩, hevidence⟩ := hids
  exact ⟨hne, hrecords, hevents, hparents, hcontacts, hcaseEvents, hreportEvents, hreportCases,
    hinteractions, hinteractionCases, hevidence⟩

theorem sound_insertRecord (hdb : Sound db)
    (hid : record.id ∉ db.events.map EventRow.id) :
    Sound { db with caseRecords := db.caseRecords ++ [record] } := by
  refine { hdb with apart := ?_ }
  rw [List.map_append, List.disjoint_append_left]
  exact ⟨hdb.apart, List.singleton_disjoint.mpr hid⟩

/-- A record comes whose counters count what names it. -/
theorem tallied_insertRecord (hdb : Tallied db)
    (hid : Unused db record.id) (hcounters : record.counters = (record.id, 0, 0, 0, 0)) :
    Tallied { db with caseRecords := db.caseRecords ++ [record] } := by
  simp only [CaseRecord.counters, Prod.mk.injEq, true_and] at hcounters
  obtain ⟨hcontact, hinteraction, hfile, hreport⟩ := hcounters
  exact { hdb with
    contacts := hdb.contacts.insert (by rw [hcontact, List.count_eq_zero_of_not_mem hid.contacts])
    interactions := hdb.interactions.insert
      (by rw [hinteraction, List.count_eq_zero_of_not_mem hid.interactionCases])
    files := hdb.files.insert (by rw [hfile, List.count_eq_zero_of_not_mem hid.evidence])
    reports := hdb.reports.insert (by
      rw [hreport, List.count_append, List.count_eq_zero_of_not_mem hid.reportCases,
        List.count_eq_zero_of_not_mem hid.reportEvents]) }

/-! ## One counter of a record

The rows that it counts change, and it with them. -/

section Record

variable {id : String} {set : CaseRecord → CaseRecord}

theorem tallied_contacts (hdb : Tallied db) {links : List CaseContact}
    (hcounted : Counted CaseRecord.id CaseRecord.contactCount
      (update CaseRecord.id db.caseRecords id set) (links.map CaseContact.caseId))
    (hset : ∀ record, (set record).counters =
      { record with contactCount := (set record).contactCount }.counters) :
    Tallied ({ db with caseContacts := links }.updateRecord id set) := by
  simp only [CaseRecord.counters, Prod.mk.injEq, true_and] at hset
  exact { hdb with
    contacts := hcounted
    interactions := hdb.interactions.frame fun record => by simp [hset record]
    files := hdb.files.frame fun record => by simp [hset record]
    reports := hdb.reports.frame fun record => by simp [hset record] }

theorem tallied_interactions (hdb : Tallied db) {rows : List Interaction}
    (hcounted : Counted CaseRecord.id CaseRecord.interactionCount
      (update CaseRecord.id db.caseRecords id set) (rows.map Interaction.caseId))
    (hset : ∀ record, (set record).counters =
      { record with interactionCount := (set record).interactionCount }.counters) :
    Tallied ({ db with caseInteractions := rows }.updateRecord id set) := by
  simp only [CaseRecord.counters, Prod.mk.injEq, true_and] at hset
  exact { hdb with
    contacts := hdb.contacts.frame fun record => by simp [hset record]
    interactions := hcounted
    files := hdb.files.frame fun record => by simp [hset record]
    reports := hdb.reports.frame fun record => by simp [hset record] }

theorem tallied_files (hdb : Tallied db) {rows : List Evidence}
    (hcounted : Counted CaseRecord.id CaseRecord.fileCount
      (update CaseRecord.id db.caseRecords id set) (rows.map Evidence.caseId))
    (hset : ∀ record, (set record).counters =
      { record with fileCount := (set record).fileCount }.counters) :
    Tallied ({ db with evidence := rows }.updateRecord id set) := by
  simp only [CaseRecord.counters, Prod.mk.injEq, true_and] at hset
  exact { hdb with
    contacts := hdb.contacts.frame fun record => by simp [hset record]
    interactions := hdb.interactions.frame fun record => by simp [hset record]
    files := hcounted
    reports := hdb.reports.frame fun record => by simp [hset record] }

theorem tallied_reports (hdb : Tallied db) {links : List ReportCase}
    (hcounted : Counted CaseRecord.id CaseRecord.reportCount
      (update CaseRecord.id db.caseRecords id set)
      (links.map ReportCase.caseId ++ db.reportEvents.map ReportEvent.eventId))
    (hset : ∀ record, (set record).counters =
      { record with reportCount := (set record).reportCount }.counters) :
    Tallied ({ db with reportCases := links }.updateRecord id set) := by
  simp only [CaseRecord.counters, Prod.mk.injEq] at hset
  exact { hdb with
    contacts := hdb.contacts.frame fun record => by simp [hset record]
    interactions := hdb.interactions.frame fun record => by simp [hset record]
    files := hdb.files.frame fun record => by simp [hset record]
    reports := hcounted }

end Record

/-! ## Records -/

theorem create_sound (hdb : Sound db) {id : String} (hid : Unused db id) (input : CreateInput) :
    Sound (create db id input).1 := by
  unfold create
  have hinserted : Sound { db with caseRecords := db.caseRecords ++ [input.record id] } :=
    sound_insertRecord hdb hid.events
  dsimp only
  split_ifs with htaken hlinks hnodup
  · exact hdb
  · exact hinserted
  · refine sound_updateRecord ?_ fun _ => rfl
    exact { hinserted with contacts := hnodup }
  · exact hinserted

theorem count_links (input : CreateInput) (id j : String) :
    ((input.links id).map CaseContact.caseId).count j =
      if id = j then input.contactLinks.length else 0 := by
  have hnames : (input.links id).map CaseContact.caseId =
      List.replicate input.contactLinks.length id := by
    unfold CreateInput.links
    rw [List.map_map, ← List.map_const]
    rfl
  rw [hnames, List.count_replicate]
  simp only [beq_iff_eq]

theorem create_tallied (hdb : Tallied db) {id : String} (hid : Unused db id)
    (input : CreateInput) : Tallied (create db id input).1 := by
  unfold create
  have hinserted : Tallied { db with caseRecords := db.caseRecords ++ [input.record id] } :=
    tallied_insertRecord hdb hid rfl
  dsimp only
  split_ifs with htaken hlinks hnodup
  · exact hdb
  · exact hinserted
  · refine tallied_contacts hinserted (hinserted.contacts.update (fun _ => rfl)
      (fun record _ _ _ => ?_) fun record _ hne => ?_) fun _ => rfl
    · rw [List.map_append, List.count_append, List.count_eq_zero_of_not_mem hid.contacts,
        count_links, if_pos rfl, Nat.zero_add]
    · rw [List.map_append, List.count_append, count_links, if_neg (Ne.symm hne), Nat.add_zero]
  · exact hinserted

theorem updateCase_sound (hdb : Sound db) {interactionId : String}
    (hid : Unused db interactionId) (id : String) (input : UpdateInput) :
    Sound (updateCase db id interactionId input).1 := by
  unfold updateCase
  cases db.record id with
  | none => exact hdb
  | some record =>
    dsimp only
    cases input.newStatus record with
    | none => exact sound_updateRecord hdb fun _ => rfl
    | some status =>
      refine sound_updateRecord ?_ fun _ => rfl
      refine { hdb with interactionIds := ?_ }
      rw [List.map_append]
      exact nodup_snoc hdb.interactionIds hid.interactions

theorem updateCase_tallied (hdb : Tallied db) (id interactionId : String) (input : UpdateInput) :
    Tallied (updateCase db id interactionId input).1 := by
  unfold updateCase
  cases db.record id with
  | none => exact hdb
  | some record =>
    dsimp only
    cases input.newStatus record with
    | none => exact tallied_updateRecord hdb fun _ => rfl
    | some status =>
      exact tallied_interactions hdb (hdb.interactions.bump (fun _ => rfl) (fun _ => rfl)
        (count_concat _ _ _)) fun _ => rfl

theorem map_dropCases {γ : Type} (f : EventRow → γ) (hf : ∀ event, f event.fewerCases = f event)
    (events : List EventRow) (eventIds : List String) :
    (dropCases events eventIds).map f = events.map f := map_foldl_update f hf eventIds events

theorem delete_sound (hdb : Sound db) (id : String) : Sound (delete db id).1 := by
  unfold delete
  cases db.record id with
  | none => exact hdb
  | some record =>
    have hids := fun eventIds => map_dropCases EventRow.id (fun _ => rfl) db.events eventIds
    exact {
      eventIds := (hids _).symm ▸ hdb.eventIds
      apart := (hids _).symm ▸
        List.disjoint_of_subset_left (List.filter_sublist.map CaseRecord.id).subset hdb.apart
      named := (hids _).symm ▸ hdb.named
      contacts := hdb.contacts.filter _
      caseEvents := hdb.caseEvents.filter _
      reportEvents := hdb.reportEvents
      reportCases := hdb.reportCases.filter _
      interactionIds := hdb.interactionIds.sublist (List.filter_sublist.map Interaction.id) }

/-- The rows that name a record go with it, and others do not name it. -/
theorem counted_delete {count : CaseRecord → Nat} {rows : List α} {caseId : α → String}
    (others : List String)
    (h : Counted CaseRecord.id count db.caseRecords (rows.map caseId ++ others)) (id : String) :
    Counted CaseRecord.id count (db.caseRecords.filter fun record => record.id ≠ id)
      ((rows.filter fun row => caseId row ≠ id).map caseId ++ others) := by
  refine (h.mono (List.filter_subset_self _)).congr fun record hrecord => ?_
  have hne := (List.mem_filter.mp hrecord).2
  rw [List.count_append, List.count_append, count_kept fun row _ hrow => hrow ▸ hne]

theorem delete_tallied (hdb : Tallied db) (id : String) : Tallied (delete db id).1 := by
  unfold delete
  cases db.record id with
  | none => exact hdb
  | some record =>
    dsimp only
    refine {
      contacts := by simpa using counted_delete [] (by simpa using hdb.contacts) id
      interactions := by simpa using counted_delete [] (by simpa using hdb.interactions) id
      files := by simpa using counted_delete [] (by simpa using hdb.files) id
      reports := counted_delete _ hdb.reports id
      cases := ?_
      eventReports := hdb.eventReports.same (map_dropCases _ (fun _ => rfl) _ _)
      subEvents := ?_ }
    · have hid : ∀ event : EventRow, event.fewerCases.id = event.id := fun _ => rfl
      have hfewer : ∀ event : EventRow, event.fewerCases.caseCount = event.caseCount - 1 :=
        fun _ => rfl
      refine hdb.cases.dropAll hid hfewer _ fun j => ?_
      have := count_partition db.caseEvents (fun link => link.caseId = id) CaseEvent.eventId j
      simpa using this
    · rw [filterMap_of_map (map_dropCases EventRow.parentEventId (fun _ => rfl) _ _)]
      exact hdb.subEvents.same (map_dropCases _ (fun _ => rfl) _ _)

/-! ## Merges -/

section Merge

variable {primaryId secondaryId : String} {now : Int}

theorem merged_sound (hdb : Sound db)
    (hcontacts : (relinkContacts db.caseContacts primaryId secondaryId).Nodup)
    (hreports : (relinkReports db.reportCases primaryId secondaryId).Nodup) (now : Int)
    (contacts interactions evidence : Nat) :
    Sound (merged db primaryId secondaryId now contacts interactions evidence) := by
  unfold merged
  refine sound_updateRecord ?_ fun _ => rfl
  refine sound_updateRecord ?_ fun _ => rfl
  refine { hdb with contacts := hcontacts, reportCases := hreports, interactionIds := ?_ }
  dsimp only
  unfold relinkInteractions
  rw [map_update Interaction.id]
  · exact hdb.interactionIds
  · exact fun _ => rfl

theorem mergeRecords_sound (hdb : Sound db) (hubId primaryId secondaryId : String) (now : Int) :
    Sound (mergeRecords db hubId primaryId secondaryId now).1 := by
  unfold mergeRecords
  split
  · exact hdb
  · exact hdb
  · split_ifs with hhub hcontacts hreports
    · exact hdb
    · exact merged_sound hdb hcontacts hreports _ _ _ _
    · exact hdb
    · exact hdb

theorem count_caseId {α : Type} (rows : List α) (caseId : α → String) (id : String) :
    rows.countP (fun row => caseId row = id) = (rows.map caseId).count id := by
  rw [List.count_eq_countP, List.countP_map]
  rfl

theorem count_caseId_zero {α : Type} {rows : List α} {caseId : α → String} {id : String} :
    (rows.map caseId).count id = 0 ↔ ∀ row ∈ rows, caseId row ≠ id := by
  rw [List.count_eq_zero]
  simp

/-- Where nothing moves, only the pointer and the times are set. -/
theorem merged_tallied (hdb : Tallied db) (hnothing : MovesNothing db primaryId secondaryId)
    (now : Int) :
    Tallied (merged db primaryId secondaryId now
      (db.caseContacts.countP fun link => link.caseId = secondaryId)
      (db.caseInteractions.countP fun row => row.caseId = secondaryId)
      (db.evidence.countP fun row => row.caseId = secondaryId)) := by
  obtain ⟨hcontacts, hinteractions, hevidence, hreports⟩ := hnothing
  rw [count_caseId, count_caseId, count_caseId, count_caseId_zero.mpr hcontacts,
    count_caseId_zero.mpr hinteractions, count_caseId_zero.mpr hevidence]
  unfold merged relinkContacts relinkInteractions relinkEvidence relinkReports
  rw [update_eq_self fun link hlink hid => absurd hid (hcontacts link hlink),
    update_eq_self fun row hrow hid => absurd hid (hinteractions row hrow),
    update_eq_self fun row hrow hid => absurd hid (hevidence row hrow)]
  rw [update_eq_self]
  · refine tallied_updateRecord ?_ fun _ => rfl
    exact tallied_updateRecord hdb fun _ => rfl
  · intro link hlink hid
    by_cases hsame : primaryId = secondaryId
    · rw [hsame, ← hid]
    · exact absurd hid (hreports hsame link hlink)

/-- The record that is merged into another one, afterwards. -/
theorem merged_secondary {record : CaseRecord} (hmem : record ∈ db.caseRecords)
    (contacts interactions evidence : Nat) :
    ∃ after ∈ (merged db primaryId record.id now contacts interactions evidence).caseRecords,
      after.counters =
        (record.id, record.contactCount + (if primaryId = record.id then contacts else 0),
          record.interactionCount + (if primaryId = record.id then interactions else 0),
          record.fileCount + (if primaryId = record.id then evidence else 0),
          record.reportCount) := by
  refine ⟨_, List.mem_map_of_mem (List.mem_map_of_mem hmem), ?_⟩
  by_cases hid : primaryId = record.id
  · simp [hid, CaseRecord.counters]
  · simp [hid, Ne.symm hid, CaseRecord.counters]

/-- What is counted before and after it has moved, and moves to itself at most, is nothing. -/
theorem count_zero_of_moved {α : Type} {rows : List α} {caseId : α → String} {set : α → α}
    {id : String} {before after : Nat} (hbefore : before = (rows.map caseId).count id)
    (hmoved : after = before +
      if primaryId = id then rows.countP (fun row => caseId row = id) else 0)
    (hafter : after = ((update caseId rows id set).map caseId).count id)
    (hset : ∀ row, caseId (set row) = primaryId) :
    ∀ row ∈ rows, caseId row ≠ id := by
  rw [count_rename hset] at hafter
  rw [count_caseId] at hmoved
  refine count_caseId_zero.mp ?_
  split_ifs at hafter hmoved <;> omega

/-- **A merge that keeps the counters right moves nothing.** -/
theorem movesNothing_of_tallied (hdb : Tallied db) {record : CaseRecord}
    (hmem : record ∈ db.caseRecords)
    (hmerged : Tallied (merged db primaryId record.id now
      (db.caseContacts.countP fun link => link.caseId = record.id)
      (db.caseInteractions.countP fun row => row.caseId = record.id)
      (db.evidence.countP fun row => row.caseId = record.id))) :
    MovesNothing db primaryId record.id := by
  obtain ⟨after, hafter, hcounters⟩ := merged_secondary hmem _ _ _
  simp only [CaseRecord.counters, Prod.mk.injEq] at hcounters
  obtain ⟨hid, hcontact, hinteraction, hfile, hreport⟩ := hcounters
  have hcontacts := hmerged.contacts after hafter
  have hinteractions := hmerged.interactions after hafter
  have hfiles := hmerged.files after hafter
  have hreports := hmerged.reports after hafter
  rw [hid] at hcontacts hinteractions hfiles hreports
  refine ⟨count_zero_of_moved (hdb.contacts record hmem) hcontact hcontacts fun _ => rfl,
    count_zero_of_moved (hdb.interactions record hmem) hinteraction hinteractions fun _ => rfl,
    count_zero_of_moved (hdb.files record hmem) hfile hfiles fun _ => rfl, fun hne => ?_⟩
  have hmoved : ((relinkReports db.reportCases primaryId record.id).map ReportCase.caseId).count
      record.id = 0 := by
    unfold relinkReports
    refine (count_rename ?_).trans (if_neg hne)
    exact fun _ => rfl
  have hall := hreport.symm.trans hreports
  rw [hdb.reports record hmem, List.count_append, List.count_append] at hall
  exact count_caseId_zero.mp (Nat.add_right_cancel (hall.trans (congrArg (· + _) hmoved)))

theorem mergeRecords_tallied_iff (hdb : Tallied db) (hubId : String) :
    Tallied (mergeRecords db hubId primaryId secondaryId now).1 ↔
      Keeps db (.mergeRecords hubId primaryId secondaryId now) := by
  unfold mergeRecords Keeps
  split
  · rename_i hprimary
    exact iff_of_true hdb (.inl hprimary)
  · rename_i hsecondary
    exact iff_of_true hdb (.inr (.inl hsecondary))
  · rename_i primary secondary hprimary hsecondary
    obtain ⟨-, -, hhub⟩ := recordOfHub_spec hprimary
    obtain ⟨hmem, rfl, hhub'⟩ := recordOfHub_spec hsecondary
    rw [if_neg (not_not.mpr (hhub'.trans hhub.symm))]
    simp only [hprimary, hsecondary, reduceCtorEq, false_or]
    split_ifs with hcontacts hreports
    · have hallowed : ¬ Forbidden db primaryId secondary.id :=
        not_or.mpr ⟨not_not.mpr hcontacts, not_not.mpr hreports⟩
      refine ⟨fun h => .inr (movesNothing_of_tallied hdb hmem h), fun h => ?_⟩
      exact merged_tallied hdb (h.resolve_left hallowed) now
    · exact iff_of_true hdb (.inl (.inr hreports))
    · exact iff_of_true hdb (.inl (.inl hcontacts))

end Merge

/-! ## Conversions -/

theorem convertFromReport_sound (hdb : Sound db) {id interactionId : String} (hid : Unused db id)
    (hinteraction : Unused db interactionId) (input : ConvertInput) :
    Sound (convertFromReport db id interactionId input).1 := by
  unfold convertFromReport
  split_ifs with hreport htaken
  · exact hdb
  · have hinserted : Sound { db with caseRecords := db.caseRecords ++ [input.record id] } :=
      sound_insertRecord hdb hid.events
    refine { hinserted with reportCases := ?_, interactionIds := ?_ }
    · refine nodup_snoc hdb.reportCases ?_
      exact fun hmem => hid.reportCases (List.mem_map_of_mem hmem)
    · rw [List.map_append]
      exact nodup_snoc hdb.interactionIds hinteraction.interactions
  · exact hdb

/-- **A record that is made from a report counts no interaction**, and has one. -/
theorem convertFromReport_tallied_iff (hdb : Tallied db) (id interactionId : String)
    (input : ConvertInput) :
    Tallied (convertFromReport db id interactionId input).1 ↔
      Keeps db (.convertFromReport id interactionId input) := by
  unfold convertFromReport Keeps
  split_ifs with hreport htaken
  · exact iff_of_true hdb (.inr htaken)
  · refine iff_of_false (fun h => ?_) ?_
    · have hcount := h.interactions (input.record id) (List.mem_append_right _ List.mem_cons_self)
      dsimp only [ConvertInput.record] at hcount
      rw [count_concat, if_pos rfl] at hcount
      omega
    · rintro (hnone | htaken')
      · simp only [List.any_eq_true, decide_eq_true_eq] at hreport
        obtain ⟨conversation, hmem, heq⟩ := hreport
        exact hnone conversation hmem heq
      · exact htaken htaken'
  · refine iff_of_true hdb (.inl fun conversation hmem heq => hreport ?_)
    exact List.any_eq_true.mpr ⟨conversation, hmem, decide_eq_true heq⟩

/-! ## Contacts -/

theorem linkContact_sound (hdb : Sound db) (caseId contactId : String) :
    Sound (linkContact db caseId contactId).1 := by
  unfold linkContact
  cases db.record caseId with
  | none => exact hdb
  | some record =>
    dsimp only
    split_ifs with hmem
    · exact hdb
    · refine sound_updateRecord ?_ fun _ => rfl
      exact { hdb with contacts := nodup_snoc hdb.contacts hmem }

theorem linkContact_tallied (hdb : Tallied db) (caseId contactId : String) :
    Tallied (linkContact db caseId contactId).1 := by
  unfold linkContact
  cases db.record caseId with
  | none => exact hdb
  | some record =>
    dsimp only
    split_ifs with hmem
    · exact hdb
    · exact tallied_contacts hdb
        (hdb.contacts.bump (fun _ => rfl) (fun _ => rfl) (count_concat _ _ _)) fun _ => rfl

theorem unlinkContact_sound (hdb : Sound db) (caseId contactId : String) :
    Sound (unlinkContact db caseId contactId).1 := by
  unfold unlinkContact
  cases db.record caseId with
  | none => exact hdb
  | some record =>
    dsimp only
    split_ifs with hmem
    · refine sound_updateRecord ?_ fun _ => rfl
      exact { hdb with contacts := hdb.contacts.filter _ }
    · exact hdb

/-- One link less. -/
theorem count_unlink [DecidableEq α] {links : List α} (hnodup : links.Nodup) {link : α}
    (hmem : link ∈ links) (f : α → String) (j : String) :
    (links.map f).count j =
      ((links.filter fun other => other ≠ link).map f).count j + if f link = j then 1 else 0 :=
  count_remove (g := id) (by rwa [List.map_id]) hmem f j

theorem unlinkContact_tallied (hsound : Sound db) (hdb : Tallied db) (caseId contactId : String) :
    Tallied (unlinkContact db caseId contactId).1 := by
  unfold unlinkContact
  cases db.record caseId with
  | none => exact hdb
  | some record =>
    dsimp only
    split_ifs with hmem
    · exact tallied_contacts hdb (hdb.contacts.drop (fun _ => rfl) (fun _ => rfl)
        (count_unlink hsound.contacts hmem _)) fun _ => rfl
    · exact hdb

/-! ## Events -/

/-- The events change, but neither a counter nor a parent. -/
theorem tallied_events (hdb : Tallied db) {events : List EventRow}
    (hsame : events.map EventRow.counters = db.events.map EventRow.counters) :
    Tallied { db with events } := by
  have hparents : events.map EventRow.parentEventId = db.events.map EventRow.parentEventId :=
    map_of_counters (fun c => c.2.1) hsame
  refine { hdb with
    cases := hdb.cases.same (map_of_counters (fun c => (c.1, c.2.2.1)) hsame)
    eventReports := hdb.eventReports.same (map_of_counters (fun c => (c.1, c.2.2.2.1)) hsame)
    subEvents := ?_ }
  dsimp only
  rw [filterMap_of_map hparents]
  exact hdb.subEvents.same (map_of_counters (fun c => (c.1, c.2.2.2.2)) hsame)

theorem given_eq_some {parentEventId : Option String} {parent : String} :
    given parentEventId = some parent ↔ parentEventId = some parent ∧ parent ≠ "" := by
  simp [given, Option.filter_eq_some_iff]

section Parent

variable {events : List EventRow} {parentEventId : Option String} {keys keys' : List String}

theorem map_adjustParent {γ : Type} (f : EventRow → γ) (set : EventRow → EventRow)
    (hf : ∀ event, f (set event) = f event) (events : List EventRow)
    (parentEventId : Option String) :
    (adjustParent events parentEventId set).map f = events.map f := by
  unfold adjustParent
  cases given parentEventId with
  | none => rfl
  | some parent => exact map_update f events parent hf

/-- Where the parent is none, no event is the parent. -/
theorem ne_of_given (hnamed : "" ∉ events.map EventRow.id) (hgiven : given parentEventId = none)
    {event : EventRow} (hevent : event ∈ events) : parentEventId ≠ some event.id := by
  rintro rfl
  have hempty : event.id ≠ "" := fun heq => hnamed (heq ▸ List.mem_map_of_mem hevent)
  rw [given_eq_some.mpr ⟨rfl, hempty⟩] at hgiven
  cases hgiven

theorem counted_moreSubEvents
    (h : Counted EventRow.id EventRow.subEventCount events keys)
    (hnamed : "" ∉ events.map EventRow.id)
    (hkeys : ∀ j, keys'.count j = keys.count j + if parentEventId = some j then 1 else 0) :
    Counted EventRow.id EventRow.subEventCount
      (adjustParent events parentEventId EventRow.moreSubEvents) keys' := by
  unfold adjustParent
  cases hgiven : given parentEventId with
  | none =>
    refine h.congr fun event hevent => ?_
    rw [hkeys, if_neg (ne_of_given hnamed hgiven hevent), Nat.add_zero]
  | some parent =>
    obtain ⟨rfl, -⟩ := given_eq_some.mp hgiven
    refine h.bump (fun _ => rfl) (fun _ => rfl) fun j => ?_
    simpa using hkeys j

theorem counted_fewerSubEvents
    (h : Counted EventRow.id EventRow.subEventCount events keys)
    (hnamed : "" ∉ events.map EventRow.id)
    (hkeys : ∀ j, keys.count j = keys'.count j + if parentEventId = some j then 1 else 0) :
    Counted EventRow.id EventRow.subEventCount
      (adjustParent events parentEventId EventRow.fewerSubEvents) keys' := by
  unfold adjustParent
  cases hgiven : given parentEventId with
  | none =>
    refine h.congr fun event hevent => ?_
    rw [hkeys, if_neg (ne_of_given hnamed hgiven hevent), Nat.add_zero]
  | some parent =>
    obtain ⟨rfl, -⟩ := given_eq_some.mp hgiven
    refine h.drop (fun _ => rfl) (fun _ => rfl) fun j => ?_
    simpa using hkeys j

end Parent

theorem createEvent_sound (hdb : Sound db) {id : String} (hid : Unused db id)
    (input : CreateEventInput) : Sound (createEvent db id input).1 := by
  have hids : (createEvent db id input).1.events.map EventRow.id =
      db.events.map EventRow.id ++ [id] :=
    (map_adjustParent EventRow.id EventRow.moreSubEvents (fun _ => rfl) _ _).trans List.map_append
  refine { hdb with eventIds := ?_, apart := ?_, named := ?_ }
  · rw [hids]
    exact nodup_snoc hdb.eventIds hid.events
  · rw [hids, List.disjoint_append_right]
    exact ⟨hdb.apart, List.disjoint_singleton.mpr hid.records⟩
  · rw [hids, List.mem_append, not_or, List.mem_singleton]
    exact ⟨hdb.named, Ne.symm hid.nonempty⟩

theorem createEvent_tallied (hsound : Sound db) (hdb : Tallied db) {id : String}
    (hid : Unused db id) (input : CreateEventInput) : Tallied (createEvent db id input).1 := by
  have hnamed : "" ∉ db.events.map EventRow.id ++ [id] := by
    rw [List.mem_append, not_or, List.mem_singleton]
    exact ⟨hsound.named, Ne.symm hid.nonempty⟩
  refine { hdb with
    cases := Counted.same (hdb.cases.insert ?_)
      (map_adjustParent _ EventRow.moreSubEvents (fun _ => rfl) _ _)
    eventReports := Counted.same (hdb.eventReports.insert ?_)
      (map_adjustParent _ EventRow.moreSubEvents (fun _ => rfl) _ _)
    subEvents := counted_moreSubEvents (hdb.subEvents.insert ?_) ?_ fun j => ?_ }
  · exact (List.count_eq_zero_of_not_mem hid.caseEvents).symm
  · exact (List.count_eq_zero_of_not_mem hid.reportEvents).symm
  · exact (List.count_eq_zero_of_not_mem hid.parents).symm
  · rwa [List.map_append]
  · have hparents := map_adjustParent EventRow.parentEventId EventRow.moreSubEvents (fun _ => rfl)
    refine (congrArg (List.count j) (filterMap_of_map (hparents _ _))).trans ?_
    rw [count_filterMap, count_filterMap, List.countP_append, List.countP_singleton]
    simp only [decide_eq_true_eq]

theorem map_moveParent {γ : Type} (f : EventRow → γ)
    (hfewer : ∀ event, f event.fewerSubEvents = f event)
    (hmore : ∀ event, f event.moreSubEvents = f event) (events : List EventRow)
    (old new : Option String) :
    (adjustParent (adjustParent events old EventRow.fewerSubEvents) new
      EventRow.moreSubEvents).map f = events.map f :=
  (map_adjustParent f _ hmore _ new).trans (map_adjustParent f _ hfewer events old)

theorem updateEvent_sound (hdb : Sound db) (id : String) (input : UpdateEventInput) :
    Sound (updateEvent db id input).1 := by
  unfold updateEvent
  cases db.event id with
  | none => exact hdb
  | some event =>
    dsimp only
    refine sound_updateEvent ?_ fun _ => rfl
    cases input.newParent event with
    | none => exact hdb
    | some parent =>
      have hids := map_moveParent EventRow.id (fun _ => rfl) (fun _ => rfl) db.events
        event.parentEventId (some parent)
      exact { hdb with
        eventIds := hids.symm ▸ hdb.eventIds
        apart := hids.symm ▸ hdb.apart
        named := hids.symm ▸ hdb.named }

/-- The sub-events of an event, without one of the events. -/
theorem count_parents (hdb : Sound db) {event : EventRow} (hevent : event ∈ db.events)
    (j : String) :
    (db.events.filterMap EventRow.parentEventId).count j =
      ((db.events.filter fun other => other.id ≠ event.id).filterMap EventRow.parentEventId).count j
        + if event.parentEventId = some j then 1 else 0 := by
  rw [count_filterMap, count_filterMap, countP_remove hdb.eventIds hevent]
  simp only [decide_eq_true_eq]

/-- Two tables of events that agree on the ids and the parents. -/
def SameParents (events events' : List EventRow) : Prop :=
  events'.map (fun event => (event.id, event.parentEventId)) =
    events.map fun event => (event.id, event.parentEventId)

/-- What is counted by ids and parents. -/
theorem SameParents.countP_eq {events events' : List EventRow} (h : SameParents events events')
    (p : String × Option String → Bool) :
    events'.countP (fun event => p (event.id, event.parentEventId)) =
      events.countP fun event => p (event.id, event.parentEventId) := by
  have := congrArg (List.countP p) h
  rwa [List.countP_map, List.countP_map] at this

/-- One event is given another parent. -/
theorem count_setParent (hdb : Sound db) {event : EventRow} (hevent : event ∈ db.events)
    {events' : List EventRow} (hsame : SameParents db.events events') {set : EventRow → EventRow}
    {parent : Option String} (hset : ∀ event, (set event).parentEventId = parent) (j : String) :
    ((update EventRow.id events' event.id set).filterMap EventRow.parentEventId).count j =
      ((db.events.filter fun other => other.id ≠ event.id).filterMap EventRow.parentEventId).count j
        + if parent = some j then 1 else 0 := by
  have hmem : (event.id, event.parentEventId) ∈
      events'.map fun event => (event.id, event.parentEventId) := by
    rw [hsame]
    exact List.mem_map_of_mem hevent
  obtain ⟨event', hevent', heq⟩ := List.mem_map.mp hmem
  obtain ⟨hid, hparent⟩ := Prod.mk.inj heq
  have hids : (events'.map EventRow.id).Nodup := by
    have := congrArg (List.map Prod.fst) hsame
    rw [List.map_map, List.map_map] at this
    exact this.symm ▸ hdb.eventIds
  have hupdate := countP_update hids hevent' set fun event => event.parentEventId = some j
  have hbefore := hsame.countP_eq fun p => p.2 = some j
  have hwithout := count_parents hdb hevent j
  rw [count_filterMap] at hwithout
  simp only [decide_eq_true_eq] at hupdate
  rw [hid, hparent, hset] at hupdate
  rw [count_filterMap]
  dsimp only at hbefore
  omega

theorem updateEvent_tallied (hsound : Sound db) (hdb : Tallied db) (id : String)
    (input : UpdateEventInput) : Tallied (updateEvent db id input).1 := by
  unfold updateEvent
  cases hfound : db.event id with
  | none => exact hdb
  | some event =>
    obtain ⟨hevent, rfl⟩ := event_spec hfound
    dsimp only
    cases input.newParent event with
    | none => exact tallied_events hdb (map_update EventRow.counters db.events _ fun _ => rfl)
    | some parent =>
      have hsame : SameParents db.events
          (adjustParent (adjustParent db.events event.parentEventId EventRow.fewerSubEvents)
            (some parent) EventRow.moreSubEvents) :=
        map_moveParent _ (fun _ => rfl) (fun _ => rfl) _ _ _
      refine { hdb with
        cases := (hdb.cases.same (map_moveParent _ (fun _ => rfl) (fun _ => rfl) _ _ _)).frame
          fun _ => rfl
        eventReports := (hdb.eventReports.same
          (map_moveParent _ (fun _ => rfl) (fun _ => rfl) _ _ _)).frame fun _ => rfl
        subEvents := ?_ }
      refine Counted.frame (counted_moreSubEvents (counted_fewerSubEvents hdb.subEvents hsound.named
        (count_parents hsound hevent)) ?_ ?_) fun _ => rfl
      · rw [map_adjustParent EventRow.id EventRow.fewerSubEvents fun _ => rfl]
        exact hsound.named
      · exact count_setParent hsound hevent hsame fun _ => rfl

theorem map_clearParent {γ : Type} (f : EventRow → γ)
    (hf : ∀ event, f { event with parentEventId := none } = f event) (events : List EventRow)
    (id : String) : (clearParent events id).map f = events.map f := by
  unfold clearParent
  rw [List.map_map]
  congr 1
  funext event
  by_cases hparent : event.parentEventId = some id <;> simp [hparent, hf]

theorem map_dropEvent {γ : Type} (f : CaseRecord → γ) (eventId : String)
    (hf : ∀ record, f (record.withoutEvent eventId) = f record) (records : List CaseRecord)
    (caseIds : List String) : (dropEvent records caseIds eventId).map f = records.map f :=
  map_foldl_update f hf caseIds records

/-- The events, when the parent has lost one of them, and those below it their parent. -/
theorem map_orphaned {γ : Type} (f : EventRow → γ)
    (hfewer : ∀ event, f event.fewerSubEvents = f event)
    (hclear : ∀ event, f { event with parentEventId := none } = f event) (events : List EventRow)
    (parentEventId : Option String) (id : String) :
    (clearParent (adjustParent events parentEventId EventRow.fewerSubEvents) id).map f =
      events.map f :=
  (map_clearParent f hclear _ id).trans (map_adjustParent f _ hfewer events parentEventId)

theorem deleteEvent_sound (hdb : Sound db) (id : String) : Sound (deleteEvent db id).1 := by
  unfold deleteEvent
  cases db.event id with
  | none => exact hdb
  | some event =>
    have hids : (((clearParent (adjustParent db.events event.parentEventId
        EventRow.fewerSubEvents) id).filter fun event => event.id ≠ id).map EventRow.id).Sublist
        (db.events.map EventRow.id) := by
      rw [← map_orphaned EventRow.id (fun _ => rfl) (fun _ => rfl) db.events event.parentEventId id]
      exact List.filter_sublist.map EventRow.id
    exact { hdb with
      eventIds := hdb.eventIds.sublist hids
      apart := by
        rw [map_dropEvent CaseRecord.id id fun _ => rfl]
        exact List.disjoint_of_subset_right hids.subset hdb.apart
      named := fun hmem => hdb.named (hids.subset hmem)
      caseEvents := hdb.caseEvents.filter _
      reportEvents := hdb.reportEvents.filter _ }

/-- Another event has the same sub-events as before, but for the one that goes. -/
theorem count_orphaned (event : EventRow) {j : String} (hj : j ≠ event.id) :
    (((clearParent (adjustParent db.events event.parentEventId EventRow.fewerSubEvents)
      event.id).filter fun other => other.id ≠ event.id).filterMap EventRow.parentEventId).count j =
    ((db.events.filter fun other => other.id ≠ event.id).filterMap
      EventRow.parentEventId).count j := by
  have hsame : SameParents db.events
      (adjustParent db.events event.parentEventId EventRow.fewerSubEvents) :=
    map_adjustParent _ EventRow.fewerSubEvents (fun _ => rfl) _ _
  have hcount := hsame.countP_eq fun p => p.2 = some j && p.1 ≠ event.id
  rw [count_filterMap, count_filterMap, List.countP_filter, List.countP_filter, clearParent,
    List.countP_map]
  refine Eq.trans (List.countP_congr fun other _ => ?_) hcount
  by_cases hparent : other.parentEventId = some event.id
  · simp [hparent, Ne.symm hj]
  · simp [hparent]

/-- The rows that name an event go with it, which does not matter to who is not the event. -/
theorem count_unnamed {links : List α} {eventId : α → String} {id j : String}
    (hj : j ≠ id) :
    ((links.filter fun link => eventId link ≠ id).map eventId).count j =
      (links.map eventId).count j :=
  count_kept fun _ _ hlink => decide_eq_true (hlink ▸ hj)

theorem deleteEvent_tallied (hsound : Sound db) (hdb : Tallied db) (id : String) :
    Tallied (deleteEvent db id).1 := by
  unfold deleteEvent
  cases hfound : db.event id with
  | none => exact hdb
  | some event =>
    obtain ⟨hevent, rfl⟩ := event_spec hfound
    have hrecords := tallied_records hdb (map_dropEvent CaseRecord.counters event.id
      (fun _ => rfl) db.caseRecords ((db.caseEvents.filter fun link => link.eventId = event.id).map
        CaseEvent.caseId))
    dsimp only
    refine { hrecords with
      reports := hrecords.reports.congr fun record hrecord => ?_
      cases := Counted.congr ((hdb.cases.same
        (map_orphaned _ (fun _ => rfl) (fun _ => rfl) _ event.parentEventId event.id)).mono
          (List.filter_subset_self _)) fun other hother => ?_
      eventReports := Counted.congr ((hdb.eventReports.same
        (map_orphaned _ (fun _ => rfl) (fun _ => rfl) _ event.parentEventId event.id)).mono
          (List.filter_subset_self _)) fun other hother => ?_
      subEvents := Counted.congr (Counted.mono (Counted.same (counted_fewerSubEvents hdb.subEvents
        hsound.named (count_parents hsound hevent)) (map_clearParent _ (fun _ => rfl) _ event.id))
          (List.filter_subset_self _)) fun other hother => ?_ }
    · have hids := map_dropEvent CaseRecord.id event.id (fun _ => rfl) db.caseRecords
        ((db.caseEvents.filter fun link => link.eventId = event.id).map CaseEvent.caseId)
      have hne : record.id ≠ event.id := fun heq => by
        refine hsound.apart (hids ▸ List.mem_map_of_mem hrecord) ?_
        rw [heq]
        exact List.mem_map_of_mem hevent
      rw [List.count_append, List.count_append, count_unnamed hne]
    · exact count_unnamed (of_decide_eq_true (List.mem_filter.mp hother).2)
    · exact count_unnamed (of_decide_eq_true (List.mem_filter.mp hother).2)
    · exact count_orphaned event (of_decide_eq_true (List.mem_filter.mp hother).2)

/-! ## Links of events -/

section Links

variable {target : EventTarget} {eventId : String} {delta : Nat → Nat}

theorem adjustCaseCount_sound (hdb : Sound db) :
    Sound (adjustCaseCount db target eventId delta) := by
  cases target with
  | legacy => exact sound_updateEvent hdb fun _ => rfl
  | record => exact hdb

theorem adjustEventReportCount_sound (hdb : Sound db) :
    Sound (adjustEventReportCount db target eventId delta) := by
  cases target with
  | legacy => exact sound_updateEvent hdb fun _ => rfl
  | record => exact sound_updateRecord hdb fun _ => rfl

/-- The links of one event change, and its counter, if it has one. -/
theorem adjustCaseCount_tallied (hdb : Tallied db) (htarget : Resolved db eventId target)
    {links : List CaseEvent}
    (hone : delta ((db.caseEvents.map CaseEvent.eventId).count eventId) =
      (links.map CaseEvent.eventId).count eventId)
    (hrest : ∀ j, j ≠ eventId → (links.map CaseEvent.eventId).count j =
      (db.caseEvents.map CaseEvent.eventId).count j) :
    Tallied (adjustCaseCount { db with caseEvents := links } target eventId delta) := by
  cases target with
  | legacy =>
    refine { hdb with
      cases := hdb.cases.update (fun _ => rfl)
        (fun event _ _ hright => (congrArg delta hright).trans hone) fun event _ hne => hrest _ hne
      eventReports := hdb.eventReports.frame fun _ => rfl
      subEvents := ?_ }
    · refine Counted.congr (hdb.subEvents.frame fun _ => rfl) fun event _ => ?_
      exact congrArg (List.count _) (filterMap_of_map
        (map_update EventRow.parentEventId db.events eventId fun _ => rfl))
  | record =>
    exact { hdb with cases := hdb.cases.congr fun event hevent => hrest _ (htarget event hevent) }

theorem count_append_congr {keys others others' : List String} {j : String}
    (h : others'.count j = others.count j) :
    (keys ++ others').count j = (keys ++ others).count j := by
  rw [List.count_append, List.count_append, h]

theorem adjustEventReportCount_tallied (hdb : Tallied db) (htarget : Resolved db eventId target)
    {links : List ReportEvent}
    (hone : ∀ others, delta (others + (db.reportEvents.map ReportEvent.eventId).count eventId) =
      others + (links.map ReportEvent.eventId).count eventId)
    (hrest : ∀ j, j ≠ eventId → (links.map ReportEvent.eventId).count j =
      (db.reportEvents.map ReportEvent.eventId).count j) :
    Tallied (adjustEventReportCount { db with reportEvents := links } target eventId delta) := by
  cases target with
  | legacy =>
    have hnone := hone 0
    rw [Nat.zero_add, Nat.zero_add] at hnone
    refine { hdb with
      reports := hdb.reports.congr fun record hrecord =>
        count_append_congr (hrest _ (htarget record hrecord))
      cases := hdb.cases.frame fun _ => rfl
      eventReports := hdb.eventReports.update (fun _ => rfl)
        (fun event _ _ hright => (congrArg delta hright).trans hnone)
        fun event _ hne => hrest _ hne
      subEvents := ?_ }
    · refine Counted.congr (hdb.subEvents.frame fun _ => rfl) fun event _ => ?_
      exact congrArg (List.count _) (filterMap_of_map
        (map_update EventRow.parentEventId db.events eventId fun _ => rfl))
  | record =>
    refine { hdb with
      contacts := hdb.contacts.frame fun _ => rfl
      interactions := hdb.interactions.frame fun _ => rfl
      files := hdb.files.frame fun _ => rfl
      reports := hdb.reports.update (fun _ => rfl) (fun record _ _ hright => ?_)
        fun record _ hne => count_append_congr (hrest _ hne)
      eventReports := hdb.eventReports.congr fun event hevent => hrest _ (htarget event hevent) }
    rw [List.count_append] at hright ⊢
    exact (congrArg delta hright).trans (hone _)

end Links

/-- One key more, at its name and elsewhere. -/
theorem count_link (links : List α) (link : α) (f : α → String) :
    (links.map f).count (f link) + 1 = ((links ++ [link]).map f).count (f link) ∧
      ∀ j, j ≠ f link → ((links ++ [link]).map f).count j = (links.map f).count j := by
  refine ⟨?_, fun j hj => ?_⟩
  · rw [count_concat, if_pos rfl]
  · rw [count_concat, if_neg (Ne.symm hj), Nat.add_zero]

/-- One key less, at its name and elsewhere. -/
theorem count_unlink_at [DecidableEq α] {links : List α} (hnodup : links.Nodup)
    {link : α} (hmem : link ∈ links) (f : α → String) :
    ((links.map f).count (f link) =
        ((links.filter fun other => other ≠ link).map f).count (f link) + 1) ∧
      ∀ j, j ≠ f link → ((links.filter fun other => other ≠ link).map f).count j =
        (links.map f).count j := by
  refine ⟨?_, fun j hj => ?_⟩
  · rw [count_unlink hnodup hmem, if_pos rfl]
  · rw [count_unlink hnodup hmem f j, if_neg (Ne.symm hj), Nat.add_zero]

theorem linkEvent_sound (hdb : Sound db) (caseId eventId hubId : String) :
    Sound (linkEvent db caseId eventId hubId).1 := by
  unfold linkEvent
  split
  · exact hdb
  · exact hdb
  · dsimp only
    split_ifs with hmem
    · exact hdb
    · refine sound_updateRecord (adjustCaseCount_sound ?_) fun _ => rfl
      exact { hdb with caseEvents := nodup_snoc hdb.caseEvents hmem }

theorem linkEvent_tallied (hsound : Sound db) (hdb : Tallied db) (caseId eventId hubId : String) :
    Tallied (linkEvent db caseId eventId hubId).1 := by
  unfold linkEvent
  split
  · exact hdb
  · exact hdb
  · rename_i target _ htarget
    dsimp only
    split_ifs with hmem
    · exact hdb
    · obtain ⟨hone, hrest⟩ := count_link db.caseEvents { caseId, eventId } CaseEvent.eventId
      refine tallied_updateRecord ?_ fun _ => rfl
      exact adjustCaseCount_tallied hdb (resolve_spec hsound htarget) hone hrest

theorem unlinkEvent_sound (hdb : Sound db) (caseId eventId hubId : String) :
    Sound (unlinkEvent db caseId eventId hubId).1 := by
  unfold unlinkEvent
  split
  · exact hdb
  · dsimp only
    split_ifs with hmem
    · refine sound_updateRecord (adjustCaseCount_sound ?_) fun _ => rfl
      exact { hdb with caseEvents := hdb.caseEvents.filter _ }
    · exact hdb

theorem unlinkEvent_tallied (hsound : Sound db) (hdb : Tallied db)
    (caseId eventId hubId : String) : Tallied (unlinkEvent db caseId eventId hubId).1 := by
  unfold unlinkEvent
  split
  · exact hdb
  · rename_i target htarget
    dsimp only
    split_ifs with hmem
    · obtain ⟨hone, hrest⟩ := count_unlink_at hsound.caseEvents hmem CaseEvent.eventId
      refine tallied_updateRecord ?_ fun _ => rfl
      refine adjustCaseCount_tallied hdb (resolve_spec hsound htarget) ?_ hrest
      exact Nat.sub_eq_of_eq_add hone
    · exact hdb

theorem linkReportEvent_sound (hdb : Sound db) (reportId eventId hubId : String) :
    Sound (linkReportEvent db reportId eventId hubId).1 := by
  unfold linkReportEvent
  split
  · exact hdb
  · dsimp only
    split_ifs with hmem
    · exact hdb
    · refine adjustEventReportCount_sound ?_
      exact { hdb with reportEvents := nodup_snoc hdb.reportEvents hmem }

theorem linkReportEvent_tallied (hsound : Sound db) (hdb : Tallied db)
    (reportId eventId hubId : String) :
    Tallied (linkReportEvent db reportId eventId hubId).1 := by
  unfold linkReportEvent
  split
  · exact hdb
  · rename_i target htarget
    dsimp only
    split_ifs with hmem
    · exact hdb
    · obtain ⟨hone, hrest⟩ := count_link db.reportEvents { reportId, eventId } ReportEvent.eventId
      refine adjustEventReportCount_tallied hdb (resolve_spec hsound htarget) (fun others => ?_)
        hrest
      exact (Nat.add_assoc _ _ _).trans (congrArg (others + ·) hone)

theorem unlinkReportEvent_sound (hdb : Sound db) (reportId eventId hubId : String) :
    Sound (unlinkReportEvent db reportId eventId hubId).1 := by
  unfold unlinkReportEvent
  split
  · exact hdb
  · dsimp only
    split_ifs with hmem
    · dsimp only
      refine adjustEventReportCount_sound ?_
      exact { hdb with reportEvents := hdb.reportEvents.filter _ }
    · exact hdb

theorem unlinkReportEvent_tallied (hsound : Sound db) (hdb : Tallied db)
    (reportId eventId hubId : String) :
    Tallied (unlinkReportEvent db reportId eventId hubId).1 := by
  unfold unlinkReportEvent
  split
  · exact hdb
  · rename_i target htarget
    dsimp only
    split_ifs with hmem
    · obtain ⟨hone, hrest⟩ := count_unlink_at hsound.reportEvents hmem ReportEvent.eventId
      dsimp only
      refine adjustEventReportCount_tallied hdb (resolve_spec hsound htarget) (fun others => ?_)
        hrest
      exact Nat.sub_eq_of_eq_add ((congrArg (others + ·) hone).trans (Nat.add_assoc _ _ _).symm)
    · exact hdb

/-! ## Links of reports to records -/

theorem linkReportCase_sound (hdb : Sound db) (caseId reportId : String) :
    Sound (linkReportCase db caseId reportId).1 := by
  unfold linkReportCase
  cases db.record caseId with
  | none => exact hdb
  | some record =>
    dsimp only
    split_ifs with hmem
    · exact hdb
    · refine sound_updateRecord ?_ fun _ => rfl
      exact { hdb with reportCases := nodup_snoc hdb.reportCases hmem }

theorem linkReportCase_tallied (hdb : Tallied db) (caseId reportId : String) :
    Tallied (linkReportCase db caseId reportId).1 := by
  unfold linkReportCase
  cases db.record caseId with
  | none => exact hdb
  | some record =>
    dsimp only
    split_ifs with hmem
    · exact hdb
    · refine tallied_reports hdb (hdb.reports.bump (fun _ => rfl) (fun _ => rfl) fun j => ?_)
        fun _ => rfl
      rw [List.count_append, List.count_append, count_concat, Nat.add_right_comm]

theorem unlinkReportCase_sound (hdb : Sound db) (caseId reportId : String) :
    Sound (unlinkReportCase db caseId reportId).1 := by
  unfold unlinkReportCase
  dsimp only
  split_ifs with hmem
  · refine sound_updateRecord ?_ fun _ => rfl
    exact { hdb with reportCases := hdb.reportCases.filter _ }
  · exact hdb

theorem unlinkReportCase_tallied (hsound : Sound db) (hdb : Tallied db)
    (caseId reportId : String) : Tallied (unlinkReportCase db caseId reportId).1 := by
  unfold unlinkReportCase
  dsimp only
  split_ifs with hmem
  · refine tallied_reports hdb (hdb.reports.drop (fun _ => rfl) (fun _ => rfl) fun j => ?_)
      fun _ => rfl
    rw [List.count_append, List.count_append, count_unlink hsound.reportCases hmem,
      Nat.add_right_comm]
  · exact hdb

/-! ## Interactions and evidence -/

theorem createInteraction_sound (hdb : Sound db) {id : String} (hid : Unused db id)
    (caseId : String) (input : CreateInteractionInput) :
    Sound (createInteraction db id caseId input).1 := by
  unfold createInteraction
  cases db.record caseId with
  | none => exact hdb
  | some record =>
    refine sound_updateRecord ?_ fun _ => rfl
    refine { hdb with interactionIds := ?_ }
    rw [List.map_append]
    exact nodup_snoc hdb.interactionIds hid.interactions

theorem createInteraction_tallied (hdb : Tallied db) (id caseId : String)
    (input : CreateInteractionInput) : Tallied (createInteraction db id caseId input).1 := by
  unfold createInteraction
  cases db.record caseId with
  | none => exact hdb
  | some record =>
    exact tallied_interactions hdb
      (hdb.interactions.bump (fun _ => rfl) (fun _ => rfl) (count_concat _ _ _)) fun _ => rfl

theorem deleteInteraction_sound (hdb : Sound db) (caseId interactionId : String) :
    Sound (deleteInteraction db caseId interactionId).1 := by
  unfold deleteInteraction
  split_ifs with hfound
  · refine sound_updateRecord ?_ fun _ => rfl
    exact { hdb with
      interactionIds := hdb.interactionIds.sublist (List.filter_sublist.map Interaction.id) }
  · exact hdb

theorem deleteInteraction_tallied (hsound : Sound db) (hdb : Tallied db)
    (caseId interactionId : String) :
    Tallied (deleteInteraction db caseId interactionId).1 := by
  unfold deleteInteraction
  split_ifs with hfound
  · obtain ⟨row, hrow, hids⟩ := List.any_eq_true.mp hfound
    rw [Bool.and_eq_true, decide_eq_true_eq, decide_eq_true_eq] at hids
    obtain ⟨rfl, rfl⟩ := hids
    exact tallied_interactions hdb (hdb.interactions.drop (fun _ => rfl) (fun _ => rfl)
      (count_remove hsound.interactionIds hrow _)) fun _ => rfl
  · exact hdb

theorem createEvidence_sound (hdb : Sound db) (id caseId fileId : String) :
    Sound (createEvidence db id caseId fileId).1 := by
  unfold createEvidence
  cases db.record caseId with
  | none => exact hdb
  | some record =>
    refine sound_updateRecord ?_ fun _ => rfl
    exact { hdb with }

theorem createEvidence_tallied (hdb : Tallied db) (id caseId fileId : String) :
    Tallied (createEvidence db id caseId fileId).1 := by
  unfold createEvidence
  cases db.record caseId with
  | none => exact hdb
  | some record =>
    exact tallied_files hdb (hdb.files.bump (fun _ => rfl) (fun _ => rfl) (count_concat _ _ _))
      fun _ => rfl

/-! ## Every operation -/

theorem call_sound (hdb : Sound db) {op : Op} (hdrawn : ∀ id ∈ op.drawn, Unused db id) :
    Sound (call db op) := by
  cases op with
  | create id input => exact create_sound hdb (hdrawn id List.mem_cons_self) input
  | update id interactionId input =>
    exact updateCase_sound hdb (hdrawn interactionId List.mem_cons_self) id input
  | delete id => exact delete_sound hdb id
  | mergeRecords hubId primaryId secondaryId now => exact mergeRecords_sound hdb hubId _ _ now
  | linkContact caseId contactId => exact linkContact_sound hdb caseId contactId
  | unlinkContact caseId contactId => exact unlinkContact_sound hdb caseId contactId
  | createEvent id input => exact createEvent_sound hdb (hdrawn id List.mem_cons_self) input
  | updateEvent id input => exact updateEvent_sound hdb id input
  | deleteEvent id => exact deleteEvent_sound hdb id
  | linkEvent caseId eventId hubId => exact linkEvent_sound hdb caseId eventId hubId
  | unlinkEvent caseId eventId hubId => exact unlinkEvent_sound hdb caseId eventId hubId
  | linkReportEvent reportId eventId hubId => exact linkReportEvent_sound hdb reportId eventId hubId
  | unlinkReportEvent reportId eventId hubId =>
    exact unlinkReportEvent_sound hdb reportId eventId hubId
  | linkReportCase caseId reportId => exact linkReportCase_sound hdb caseId reportId
  | unlinkReportCase caseId reportId => exact unlinkReportCase_sound hdb caseId reportId
  | convertFromReport id interactionId input =>
    exact convertFromReport_sound hdb (hdrawn id List.mem_cons_self)
      (hdrawn interactionId (List.mem_cons_of_mem id List.mem_cons_self)) input
  | createInteraction id caseId input =>
    exact createInteraction_sound hdb (hdrawn id List.mem_cons_self) caseId input
  | deleteInteraction caseId interactionId => exact deleteInteraction_sound hdb caseId interactionId
  | createEvidence id caseId fileId => exact createEvidence_sound hdb id caseId fileId
  | others entityTypes conversations => exact { hdb with }

/-- **An operation keeps the counters right exactly if it meets the condition.** -/
theorem call_tallied_iff (hsound : Sound db) (hdb : Tallied db) {op : Op}
    (hdrawn : ∀ id ∈ op.drawn, Unused db id) : Tallied (call db op) ↔ Keeps db op := by
  cases op with
  | mergeRecords hubId primaryId secondaryId now => exact mergeRecords_tallied_iff hdb hubId
  | convertFromReport id interactionId input =>
    exact convertFromReport_tallied_iff hdb id interactionId input
  | create id input =>
    exact iff_of_true (create_tallied hdb (hdrawn id List.mem_cons_self) input) trivial
  | update id interactionId input =>
    exact iff_of_true (updateCase_tallied hdb id interactionId input) trivial
  | delete id => exact iff_of_true (delete_tallied hdb id) trivial
  | linkContact caseId contactId =>
    exact iff_of_true (linkContact_tallied hdb caseId contactId) trivial
  | unlinkContact caseId contactId =>
    exact iff_of_true (unlinkContact_tallied hsound hdb caseId contactId) trivial
  | createEvent id input =>
    exact iff_of_true (createEvent_tallied hsound hdb (hdrawn id List.mem_cons_self) input) trivial
  | updateEvent id input => exact iff_of_true (updateEvent_tallied hsound hdb id input) trivial
  | deleteEvent id => exact iff_of_true (deleteEvent_tallied hsound hdb id) trivial
  | linkEvent caseId eventId hubId =>
    exact iff_of_true (linkEvent_tallied hsound hdb caseId eventId hubId) trivial
  | unlinkEvent caseId eventId hubId =>
    exact iff_of_true (unlinkEvent_tallied hsound hdb caseId eventId hubId) trivial
  | linkReportEvent reportId eventId hubId =>
    exact iff_of_true (linkReportEvent_tallied hsound hdb reportId eventId hubId) trivial
  | unlinkReportEvent reportId eventId hubId =>
    exact iff_of_true (unlinkReportEvent_tallied hsound hdb reportId eventId hubId) trivial
  | linkReportCase caseId reportId =>
    exact iff_of_true (linkReportCase_tallied hdb caseId reportId) trivial
  | unlinkReportCase caseId reportId =>
    exact iff_of_true (unlinkReportCase_tallied hsound hdb caseId reportId) trivial
  | createInteraction id caseId input =>
    exact iff_of_true (createInteraction_tallied hdb id caseId input) trivial
  | deleteInteraction caseId interactionId =>
    exact iff_of_true (deleteInteraction_tallied hsound hdb caseId interactionId) trivial
  | createEvidence id caseId fileId =>
    exact iff_of_true (createEvidence_tallied hdb id caseId fileId) trivial
  | others entityTypes conversations => exact iff_of_true { hdb with } trivial

theorem step_spec {op : Op} (h : step db op = some db') :
    (∀ id ∈ op.drawn, Unused db id) ∧ db' = call db op := by
  unfold step at h
  split_ifs at h with hfresh
  exact ⟨fun id hid => unused_of_fresh (hfresh id hid), (Option.some.inj h).symm⟩

/-- There is no record and no event yet. -/
def start (entityTypes : List EntityType) (conversations : List Conversation) : Db where
  entityTypeDefinitions := entityTypes
  conversations := conversations

theorem start_sound (entityTypes : List EntityType) (conversations : List Conversation) :
    Sound (start entityTypes conversations) :=
  ⟨.nil, List.disjoint_nil_left _, List.not_mem_nil, .nil, .nil, .nil, .nil, .nil⟩

theorem start_tallied (entityTypes : List EntityType) (conversations : List Conversation) :
    Tallied (start entityTypes conversations) :=
  ⟨nofun, nofun, nofun, nofun, nofun, nofun, nofun⟩

/-- **The counters are right in every state of a run exactly if every merge in it moves nothing, or
fails, and every conversion fails.** -/
theorem tallied_iff_along {entityTypes : List EntityType} {conversations : List Conversation}
    {ops : List Op} (h : Runs.run step (start entityTypes conversations) ops = some db) :
    (∀ before after db, ops = before ++ after →
        Runs.run step (start entityTypes conversations) before = some db → Tallied db) ↔
      Runs.Along step Keeps (start entityTypes conversations) ops := by
  refine Runs.inv_iff_along (I := Sound) (fun db op db' hsound hstep => ?_)
    (fun db op db' hsound hdb hstep => ?_) (start_sound _ _) (start_tallied _ _) h
  · obtain ⟨hdrawn, rfl⟩ := step_spec hstep
    exact call_sound hsound hdrawn
  · obtain ⟨hdrawn, rfl⟩ := step_spec hstep
    exact call_tallied_iff hsound hdb hdrawn

instance : DecidableRel Keeps := fun db op => by
  cases op <;> unfold Keeps <;> try unfold MovesNothing Forbidden
  all_goals infer_instance

/-- Two records of a hub, one with a contact, an event with a sub-event, and links between them. -/
def opened : List Op :=
  [.create "a" { hubId := "hub", statusHash := "open" },
    .create "b" { hubId := "hub", statusHash := "open", contactLinks := ["ann", "bea"] },
    .createEvent "march" { hubId := "hub", statusHash := "open" },
    .createEvent "rally" { hubId := "hub", statusHash := "open", parentEventId := some "march" },
    .linkEvent "b" "march" "hub", .linkReportEvent "report" "march" "hub",
    .update "b" "note" { statusHash := some "closed" }, .createEvidence "photo" "b" "file"]

/-- The links are taken apart again; the merge has nothing to move. -/
def closed : List Op :=
  [.unlinkContact "b" "ann", .mergeRecords "hub" "b" "a" 0, .deleteEvent "march", .delete "b"]

theorem closed_tallied :
    ∃ db, Runs.run step (start [] []) (opened ++ closed) = some db ∧
      ∀ before after db, opened ++ closed = before ++ after →
        Runs.run step (start [] []) before = some db → Tallied db := by
  have hrun : (Runs.run step (start [] []) (opened ++ closed)).isSome := by decide +kernel
  obtain ⟨db, hdb⟩ := Option.isSome_iff_exists.mp hrun
  exact ⟨db, hdb, (tallied_iff_along hdb).mpr (by decide +kernel)⟩

/-- **The record that is merged into another one counts contacts that it has no longer.** -/
theorem merged_miscounts :
    ∃ db ∈ Runs.run step (start [] []) (opened ++ [.mergeRecords "hub" "a" "b" 0]),
      ¬ Tallied db := by
  have hrun : ∃ db ∈ Runs.run step (start [] []) (opened ++ [.mergeRecords "hub" "a" "b" 0]),
      ∃ record ∈ db.caseRecords, record.contactCount = 2 ∧
        (db.caseContacts.map CaseContact.caseId).count record.id = 0 := by
    decide +kernel
  obtain ⟨db, hdb, record, hrecord, htwo, hnone⟩ := hrun
  refine ⟨db, hdb, fun h => ?_⟩
  have hcount := h.contacts record hrecord
  rw [htwo, hnone] at hcount
  cases hcount

end Llamenos.Worker.Cases

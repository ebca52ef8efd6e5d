import Llamenos.Worker.Erasure
import Mathlib.Data.List.Nodup

/-!
# What an erasure leaves of a user's envelopes

`executeErasure` queues one job for each hub that the user has a hub key of or has written a note
in, and `processReEncryptionJob` takes the user's envelopes out of three columns of the job's hub:
the admin envelopes of notes, and the reader envelopes of replies and of messages. Author envelopes
are counted but not removed, a note's field envelopes and the other tables are not looked at, and a
hub that the user has only received envelopes in has no job.

Results:
* `processReEncryptionJob_spec`: what a job does.
* `foldl_process`: after the jobs of an erasure have been processed, each is completed, and nothing
  is left of its hub's envelopes in the three columns.
* `shredded_iff`: **the user's envelopes are gone exactly if there were none outside the three
  columns, nor outside the hubs of the jobs.**
* `ownNote_remains`: the envelope of a note for its author remains.
-/

namespace Llamenos.Worker.Erasure

open Llamenos.Lib

/-! ## A job -/

def ReEncryptionJob.progress (jobId : String) (processedEnvelopes totalEnvelopes : Nat)
    (row : ReEncryptionJob) : ReEncryptionJob :=
  if row.id = jobId then
    { row with
      processedEnvelopes, totalEnvelopes,
      status := if processedEnvelopes ≥ totalEnvelopes then .completed else .running }
  else row

def updateReEncryptionJobProgress (db : Db) (jobId : String)
    (processedEnvelopes totalEnvelopes : Nat) : Db :=
  { db with jobs := db.jobs.map (.progress jobId processedEnvelopes totalEnvelopes) }

/-- `… @> [{ pubkey: userPubkey }]`. -/
def hasEnvelope (userPubkey : String) (envelopes : List Envelope) : Bool :=
  envelopes.any (·.pubkey = some userPubkey)

/-- The elements with `elem->>'pubkey' != userPubkey`, which is not so of those without a key. -/
def withoutEnvelopes (userPubkey : String) (envelopes : List Envelope) : List Envelope :=
  envelopes.filter (·.pubkey.any (· ≠ userPubkey))

/-- `UPDATE … SET column = (…) WHERE … AND column @> …`: the user's envelopes are taken out of a
column, in the rows of a hub. -/
def updateColumn {α : Type} (userPubkey : String) (inHub : α → Bool) (column : α → List Envelope)
    (set : α → List Envelope → α) (rows : List α) : List α :=
  rows.map fun row =>
    if inHub row && hasEnvelope userPubkey (column row) then
      set row (withoutEnvelopes userPubkey (column row))
    else row

def Note.inHub (hubId : String) (note : Note) : Bool := note.hubId = some hubId

/-- The join of `note_replies` with `notes`. -/
def NoteReply.inHub (notes : List Note) (hubId : String) (reply : NoteReply) : Bool :=
  notes.any fun note => note.id = reply.noteId && note.inHub hubId

/-- The join of `messages` with `conversations`. -/
def Message.inHub (conversations : String → Option String) (hubId : String)
    (message : Message) : Bool :=
  conversations message.conversationId = some hubId

def noteCount (db : Db) (userPubkey hubId : String) : Nat :=
  db.notes.countP fun note => note.inHub hubId && (hasEnvelope userPubkey note.adminEnvelopes ||
    note.authorEnvelope.any (·.pubkey = some userPubkey))

def replyCount (db : Db) (userPubkey hubId : String) : Nat :=
  db.noteReplies.countP fun reply =>
    reply.inHub db.notes hubId && hasEnvelope userPubkey reply.readerEnvelopes

def messageCount (db : Db) (userPubkey hubId : String) : Nat :=
  db.messages.countP fun message =>
    message.inHub db.conversations hubId && hasEnvelope userPubkey message.readerEnvelopes

def updateNotes (db : Db) (userPubkey hubId : String) : Db :=
  { db with
    notes := updateColumn userPubkey (Note.inHub hubId) Note.adminEnvelopes
      (fun note envelopes => { note with adminEnvelopes := envelopes }) db.notes }

def updateNoteReplies (db : Db) (userPubkey hubId : String) : Db :=
  { db with
    noteReplies := updateColumn userPubkey (NoteReply.inHub db.notes hubId)
      NoteReply.readerEnvelopes
      (fun reply envelopes => { reply with readerEnvelopes := envelopes }) db.noteReplies }

def updateMessages (db : Db) (userPubkey hubId : String) : Db :=
  { db with
    messages := updateColumn userPubkey (Message.inHub db.conversations hubId)
      Message.readerEnvelopes
      (fun message envelopes => { message with readerEnvelopes := envelopes }) db.messages }

/-- `processReEncryptionJob`. -/
def processReEncryptionJob (db : Db) (jobId : String) : Db :=
  match db.jobs.find? (·.id = jobId) with
  | none => db
  | some job =>
    if job.status = .completed then db
    else
      let noteCount := noteCount db job.userId job.hubId
      let replyCount := replyCount db job.userId job.hubId
      let messageCount := messageCount db job.userId job.hubId
      let total := noteCount + replyCount + messageCount
      let db := updateReEncryptionJobProgress db jobId 0 total
      if total = 0 then db
      else
        let db := updateNotes db job.userId job.hubId
        let db := updateReEncryptionJobProgress db jobId noteCount total
        let db := updateNoteReplies db job.userId job.hubId
        let db := updateReEncryptionJobProgress db jobId (noteCount + replyCount) total
        let db := updateMessages db job.userId job.hubId
        updateReEncryptionJobProgress db jobId (noteCount + replyCount + messageCount) total

/-- `executeErasure`. -/
def executeErasure (db : Db) (userId : String) (jobIds : List String) (now : Int) : Option Db :=
  executeCommit db userId (hubMemberships db userId) jobIds now

/-! ## The property -/

/-- A note of the hub has an envelope for the user, in the columns that jobs leave alone. The
envelope of a note's author has no key of its own. -/
def Note.Keeps (note : Note) (userId : String) : Prop :=
  (∃ envelope ∈ note.authorEnvelope, envelope.pubkey.getD note.authorPubkey = userId) ∨
    hasEnvelope userId note.fieldEnvelopes

/-- The user has an envelope in the hub that no job removes. -/
def KeptIn (db : Db) (userId hubId : String) : Prop :=
  (∃ note ∈ db.notes, note.inHub hubId ∧ note.Keeps userId) ∨
    ∃ row ∈ db.others, row.hubId = some hubId ∧ hasEnvelope userId row.envelopes

/-- The user has an envelope in a column of the rows in a hub. -/
def ColumnHas {α : Type} (userId : String) (inHub : α → Bool) (column : α → List Envelope)
    (rows : List α) : Prop :=
  ∃ row ∈ rows, inHub row ∧ hasEnvelope userId (column row)

/-- The user has an envelope in the hub that a job removes. -/
def RemovableIn (db : Db) (userId hubId : String) : Prop :=
  ColumnHas userId (Note.inHub hubId) Note.adminEnvelopes db.notes ∨
    ColumnHas userId (NoteReply.inHub db.notes hubId) NoteReply.readerEnvelopes db.noteReplies ∨
    ColumnHas userId (Message.inHub db.conversations hubId) Message.readerEnvelopes db.messages

/-- The user has an envelope in the hub. -/
def HoldsIn (db : Db) (userId hubId : String) : Prop :=
  KeptIn db userId hubId ∨ RemovableIn db userId hubId ∨ (hubId, userId) ∈ db.hubKeys

/-- After the jobs, a completed one has left no envelope for the user in its hub; and there is one
for each hub that had any before. -/
structure Shredded (before after : Db) (userId : String) (jobIds : List String) : Prop where
  cleared : ∀ job ∈ after.jobs, job.id ∈ jobIds → job.status = .completed →
    ¬ HoldsIn after userId job.hubId
  covered : ∀ hubId, HoldsIn before userId hubId →
    ∃ job ∈ after.jobs, job.id ∈ jobIds ∧ job.userId = userId ∧ job.hubId = hubId

/-- Hubs with envelopes for the user are memberships, with a name, and none of these has an
envelope for the user that jobs leave alone. -/
structure WithinReach (db : Db) (userId : String) : Prop where
  member : ∀ hubId, HoldsIn db userId hubId → hubId ∈ (hubMemberships db userId).filter (· ≠ "")
  bare : ∀ hubId ∈ (hubMemberships db userId).filter (· ≠ ""), ¬ KeptIn db userId hubId

/-! ## What a job removes -/

variable {db db' : Db} {userId userPubkey hubId hubId' : String}

theorem hasEnvelope_of_without {envelopes : List Envelope}
    (h : hasEnvelope userId (withoutEnvelopes userPubkey envelopes)) :
    hasEnvelope userId envelopes := by
  obtain ⟨envelope, hmem, hkey⟩ := List.any_eq_true.mp h
  exact List.any_eq_true.mpr ⟨envelope, (List.mem_filter.mp hmem).1, hkey⟩

theorem not_hasEnvelope_without (envelopes : List Envelope) :
    ¬ hasEnvelope userPubkey (withoutEnvelopes userPubkey envelopes) := by
  intro h
  obtain ⟨envelope, hmem, hkey⟩ := List.any_eq_true.mp h
  have hother := (List.mem_filter.mp hmem).2
  rw [of_decide_eq_true hkey] at hother
  exact of_decide_eq_true hother rfl

section UpdateColumn

variable {α : Type} {inHub inHub' : α → Bool} {column : α → List Envelope}
  {set : α → List Envelope → α} {rows : List α}

/-- What does not depend on the column is as before. -/
theorem exists_updateColumn_iff {p : α → Prop}
    (hp : ∀ row envelopes, p (set row envelopes) ↔ p row) :
    (∃ row ∈ updateColumn userPubkey inHub column set rows, p row) ↔ ∃ row ∈ rows, p row := by
  have hrow : ∀ row, p (if inHub row && hasEnvelope userPubkey (column row) then
      set row (withoutEnvelopes userPubkey (column row)) else row) ↔ p row := by
    intro row
    split
    · exact hp row _
    · exact Iff.rfl
  simp only [updateColumn, List.mem_map, exists_exists_and_eq_and, hrow]

/-- No envelope is added. -/
theorem columnHas_of_update
    (h : ColumnHas userId inHub' column (updateColumn userPubkey inHub column set rows))
    (hcolumn : ∀ row envelopes, column (set row envelopes) = envelopes)
    (hhub : ∀ row envelopes, inHub' (set row envelopes) = inHub' row) :
    ColumnHas userId inHub' column rows := by
  obtain ⟨_, hmem, hin, hhas⟩ := h
  obtain ⟨row, hrow, rfl⟩ := List.mem_map.mp hmem
  refine ⟨row, hrow, ?_⟩
  split at hin
  · rename_i hhit
    rw [if_pos hhit, hcolumn] at hhas
    exact ⟨hhub row _ ▸ hin, hasEnvelope_of_without hhas⟩
  · rename_i hhit
    rw [if_neg hhit] at hhas
    exact ⟨hin, hhas⟩

/-- The user's envelopes are gone from the rows of the hub. -/
theorem not_columnHas_update (hcolumn : ∀ row envelopes, column (set row envelopes) = envelopes) :
    ¬ ColumnHas userPubkey inHub column (updateColumn userPubkey inHub column set rows) := by
  rintro ⟨_, hmem, hin, hhas⟩
  obtain ⟨row, hrow, rfl⟩ := List.mem_map.mp hmem
  by_cases hhit : inHub row && hasEnvelope userPubkey (column row)
  · rw [if_pos hhit, hcolumn] at hhas
    exact not_hasEnvelope_without _ hhas
  · rw [if_neg hhit] at hin hhas
    exact hhit (Bool.and_eq_true _ _ ▸ ⟨hin, hhas⟩)

end UpdateColumn

theorem updateNotes_notes : (updateNotes db userPubkey hubId).notes =
    updateColumn userPubkey (Note.inHub hubId) Note.adminEnvelopes
      (fun note envelopes => { note with adminEnvelopes := envelopes }) db.notes := rfl

theorem updateNoteReplies_noteReplies : (updateNoteReplies db userPubkey hubId).noteReplies =
    updateColumn userPubkey (NoteReply.inHub db.notes hubId) NoteReply.readerEnvelopes
      (fun reply envelopes => { reply with readerEnvelopes := envelopes }) db.noteReplies := rfl

theorem updateMessages_messages : (updateMessages db userPubkey hubId).messages =
    updateColumn userPubkey (Message.inHub db.conversations hubId) Message.readerEnvelopes
      (fun message envelopes => { message with readerEnvelopes := envelopes }) db.messages := rfl

theorem updateNotes_inHub (reply : NoteReply) :
    reply.inHub (updateNotes db userPubkey hubId).notes hubId' = reply.inHub db.notes hubId' := by
  rw [Bool.eq_iff_iff, NoteReply.inHub, NoteReply.inHub, List.any_eq_true, List.any_eq_true,
    updateNotes_notes]
  exact exists_updateColumn_iff fun note envelopes => Iff.rfl

theorem updateNotes_kept :
    KeptIn (updateNotes db userPubkey hubId) userId hubId' ↔ KeptIn db userId hubId' := by
  rw [KeptIn, updateNotes_notes]
  exact or_congr (exists_updateColumn_iff fun note envelopes => Iff.rfl) Iff.rfl

/-! ## What a job does -/

/-- No envelope is left that a job removes. -/
structure NoneRemovable (db : Db) (userId hubId : String) : Prop where
  notes : ¬ ColumnHas userId (Note.inHub hubId) Note.adminEnvelopes db.notes
  noteReplies : ¬ ColumnHas userId (NoteReply.inHub db.notes hubId) NoteReply.readerEnvelopes
    db.noteReplies
  messages : ¬ ColumnHas userId (Message.inHub db.conversations hubId) Message.readerEnvelopes
    db.messages

theorem NoneRemovable.not_removableIn (h : NoneRemovable db userId hubId) :
    ¬ RemovableIn db userId hubId := by
  rintro (hnotes | hreplies | hmessages)
  · exact h.notes hnotes
  · exact h.noteReplies hreplies
  · exact h.messages hmessages

/-- What happens to the tables while a job of a user in a hub is processed. -/
structure Removes (db db' : Db) (userId hubId : String) : Prop where
  kept : KeptIn db' userId hubId ↔ KeptIn db userId hubId
  hubKeys : db'.hubKeys = db.hubKeys
  mono : NoneRemovable db userId hubId → NoneRemovable db' userId hubId

theorem Removes.trans {db'' : Db} (h : Removes db db' userId hubId)
    (h' : Removes db' db'' userId hubId) : Removes db db'' userId hubId :=
  ⟨h'.kept.trans h.kept, h'.hubKeys.trans h.hubKeys, fun hnone => h'.mono (h.mono hnone)⟩

theorem removes_progress (db : Db) (jobId : String) (processed total : Nat) :
    Removes db (updateReEncryptionJobProgress db jobId processed total) userId hubId :=
  ⟨Iff.rfl, rfl, fun h => ⟨h.notes, h.noteReplies, h.messages⟩⟩

theorem removes_notes (db : Db) (userPubkey hubId' : String) :
    Removes db (updateNotes db userPubkey hubId') userId hubId where
  kept := updateNotes_kept
  hubKeys := rfl
  mono h := by
    refine ⟨fun hnotes => h.notes ?_, fun hreplies => h.noteReplies ?_, h.messages⟩
    · rw [updateNotes_notes] at hnotes
      exact columnHas_of_update hnotes (fun _ _ => rfl) fun _ _ => rfl
    · obtain ⟨reply, hreply, hin, hhas⟩ := hreplies
      exact ⟨reply, hreply, updateNotes_inHub reply ▸ hin, hhas⟩

theorem removes_noteReplies (db : Db) (userPubkey hubId' : String) :
    Removes db (updateNoteReplies db userPubkey hubId') userId hubId where
  kept := Iff.rfl
  hubKeys := rfl
  mono h := by
    refine ⟨h.notes, fun hreplies => h.noteReplies ?_, h.messages⟩
    rw [updateNoteReplies_noteReplies] at hreplies
    exact columnHas_of_update hreplies (fun _ _ => rfl) fun _ _ => rfl

theorem removes_messages (db : Db) (userPubkey hubId' : String) :
    Removes db (updateMessages db userPubkey hubId') userId hubId where
  kept := Iff.rfl
  hubKeys := rfl
  mono h := by
    refine ⟨h.notes, h.noteReplies, fun hmessages => h.messages ?_⟩
    rw [updateMessages_messages] at hmessages
    exact columnHas_of_update hmessages (fun _ _ => rfl) fun _ _ => rfl

/-- What the three updates together remove. -/
theorem noneRemovable_updates (db : Db) (userPubkey hubId : String) :
    NoneRemovable (updateMessages (updateNoteReplies (updateNotes db userPubkey hubId) userPubkey
      hubId) userPubkey hubId) userPubkey hubId where
  notes := by
    have hnotes : ¬ ColumnHas userPubkey (Note.inHub hubId) Note.adminEnvelopes
        (updateNotes db userPubkey hubId).notes := by
      rw [updateNotes_notes]
      exact not_columnHas_update fun _ _ => rfl
    exact hnotes
  noteReplies := by
    have hreplies : ∀ db : Db, ¬ ColumnHas userPubkey (NoteReply.inHub db.notes hubId)
        NoteReply.readerEnvelopes (updateNoteReplies db userPubkey hubId).noteReplies := by
      intro db
      rw [updateNoteReplies_noteReplies]
      exact not_columnHas_update fun _ _ => rfl
    exact hreplies (updateNotes db userPubkey hubId)
  messages := by
    rw [updateMessages_messages]
    exact not_columnHas_update fun _ _ => rfl

theorem noneRemovable_of_counts (hnotes : noteCount db userId hubId = 0)
    (hreplies : replyCount db userId hubId = 0) (hmessages : messageCount db userId hubId = 0) :
    NoneRemovable db userId hubId := by
  refine ⟨?_, ?_, ?_⟩ <;> rintro ⟨row, hrow, hin, hhas⟩
  · exact List.countP_eq_zero.mp hnotes row hrow (by simp [hin, hhas])
  · exact List.countP_eq_zero.mp hreplies row hrow (by simp [hin, hhas])
  · exact List.countP_eq_zero.mp hmessages row hrow (by simp [hin, hhas])

/-- What an erasure gives a job, and nothing changes. -/
def ReEncryptionJob.key (job : ReEncryptionJob) : String × String × String :=
  (job.id, job.userId, job.hubId)

theorem ReEncryptionJob.progress_key (jobId : String) (processed total : Nat) :
    key ∘ progress jobId processed total = key := by
  funext row
  rw [Function.comp, progress]
  split <;> rfl

theorem ReEncryptionJob.progress_progress (jobId : String) (processed processed' total : Nat) :
    progress jobId processed' total ∘ progress jobId processed total =
      progress jobId processed' total := by
  funext row
  by_cases hid : row.id = jobId <;> simp [progress, hid]

/-- A job has been processed. -/
structure Processed (db db' : Db) (job : ReEncryptionJob) : Prop where
  removes : ∀ userId hubId, Removes db db' userId hubId
  cleared : NoneRemovable db' job.userId job.hubId
  jobs : ∃ total, db'.jobs = db.jobs.map (.progress job.id total total)
variable {job : ReEncryptionJob}

theorem processReEncryptionJob_processed {jobId : String}
    (hjob : db.jobs.find? (·.id = jobId) = some job) (hopen : job.status ≠ .completed) :
    Processed db (processReEncryptionJob db jobId) job := by
  have hid : job.id = jobId := by simpa using List.find?_some hjob
  rw [processReEncryptionJob, hjob]
  simp only [if_neg hopen]
  generalize htotal : noteCount db job.userId job.hubId + replyCount db job.userId job.hubId +
    messageCount db job.userId job.hubId = total
  split
  · rename_i hzero
    have hnone : NoneRemovable db job.userId job.hubId :=
      noneRemovable_of_counts (by omega) (by omega) (by omega)
    refine ⟨fun _ _ => removes_progress db jobId 0 total, ?_, total, ?_⟩
    · exact (removes_progress db jobId 0 total).mono hnone
    · rw [hid, hzero]
      rfl
  · refine ⟨fun _ _ => ?_, ?_, total, ?_⟩
    · exact (((((removes_progress _ _ _ _).trans (removes_notes _ _ _)).trans
        (removes_progress _ _ _ _)).trans (removes_noteReplies _ _ _)).trans
        (removes_progress _ _ _ _)).trans ((removes_messages _ _ _).trans
        (removes_progress _ _ _ _))
    · have hnone := noneRemovable_updates db job.userId job.hubId
      exact ⟨hnone.notes, hnone.noteReplies, hnone.messages⟩
    · simp only [updateReEncryptionJobProgress, updateNotes, updateNoteReplies, updateMessages,
        List.map_map, ReEncryptionJob.progress_progress, hid]

/-- **What processing does**: nothing where there is no job, or a completed one. -/
theorem processReEncryptionJob_spec (db : Db) (jobId : String) :
    (processReEncryptionJob db jobId = db ∧
        ∀ job, db.jobs.find? (·.id = jobId) = some job → job.status = .completed) ∨
      ∃ job, db.jobs.find? (·.id = jobId) = some job ∧
        Processed db (processReEncryptionJob db jobId) job := by
  cases hjob : db.jobs.find? (·.id = jobId) with
  | none =>
    refine .inl ⟨?_, fun _ h => by cases h⟩
    rw [processReEncryptionJob, hjob]
  | some job =>
    by_cases hdone : job.status = .completed
    · refine .inl ⟨?_, fun _ h => Option.some.inj h ▸ hdone⟩
      rw [processReEncryptionJob, hjob]
      simp only [if_pos hdone]
    · exact .inr ⟨job, rfl, processReEncryptionJob_processed hjob hdone⟩

/-! ## All the jobs of an erasure -/

/-- Whatever job is processed, it only removes. -/
theorem processReEncryptionJob_removes (db : Db) (jobId userId hubId : String) :
    Removes db (processReEncryptionJob db jobId) userId hubId := by
  rcases processReEncryptionJob_spec db jobId with ⟨hsame, -⟩ | ⟨job, -, hprocessed⟩
  · rw [hsame]
    exact ⟨Iff.rfl, rfl, id⟩
  · exact hprocessed.removes userId hubId

theorem processReEncryptionJob_keys (db : Db) (jobId : String) :
    (processReEncryptionJob db jobId).jobs.map ReEncryptionJob.key =
      db.jobs.map ReEncryptionJob.key := by
  rcases processReEncryptionJob_spec db jobId with ⟨hsame, -⟩ | ⟨job, -, hprocessed⟩
  · rw [hsame]
  · obtain ⟨total, hjobs⟩ := hprocessed.jobs
    rw [hjobs, List.map_map, ReEncryptionJob.progress_key]

theorem ids_of_keys (h : db'.jobs.map ReEncryptionJob.key = db.jobs.map ReEncryptionJob.key) :
    db'.jobs.map ReEncryptionJob.id = db.jobs.map ReEncryptionJob.id := by
  have hids := congrArg (List.map Prod.fst) h
  rwa [List.map_map, List.map_map] at hids

/-- What holds of a job that an erasure has created, from then on. -/
structure JobFor (db : Db) (job : ReEncryptionJob) : Prop where
  ids : (db.jobs.map ReEncryptionJob.id).Nodup
  there : job.key ∈ db.jobs.map ReEncryptionJob.key
  cleared : ∀ row ∈ db.jobs, row.id = job.id → row.status = .completed →
    NoneRemovable db job.userId job.hubId

theorem JobFor.key_eq {job row : ReEncryptionJob} (h : JobFor db job) (hrow : row ∈ db.jobs)
    (hid : row.id = job.id) : row.key = job.key := by
  obtain ⟨row', hrow', hkey⟩ := List.mem_map.mp h.there
  rw [List.inj_on_of_nodup_map h.ids hrow hrow' (hid.trans (congrArg Prod.fst hkey).symm), hkey]

/-- The row that `processReEncryptionJob` reads is the job's. -/
theorem JobFor.find_eq {job row : ReEncryptionJob} (h : JobFor db job) (hrow : row ∈ db.jobs)
    (hid : row.id = job.id) : db.jobs.find? (·.id = job.id) = some row := by
  cases hfind : db.jobs.find? (·.id = job.id) with
  | none => exact absurd (decide_eq_true hid) (List.find?_eq_none.mp hfind row hrow)
  | some found =>
    have hfound : found.id = job.id := by simpa using List.find?_some hfind
    rw [List.inj_on_of_nodup_map h.ids (List.mem_of_find?_eq_some hfind) hrow
      (hfound.trans hid.symm)]

theorem JobFor.process (h : JobFor db job) (jobId : String) :
    JobFor (processReEncryptionJob db jobId) job := by
  have hkeys := processReEncryptionJob_keys db jobId
  refine ⟨ids_of_keys hkeys ▸ h.ids, hkeys ▸ h.there, fun row hrow hid hdone => ?_⟩
  rcases processReEncryptionJob_spec db jobId with ⟨hsame, -⟩ | ⟨found, hfound, hprocessed⟩
  · rw [hsame] at hrow ⊢
    exact h.cleared row hrow hid hdone
  · by_cases hself : found.id = job.id
    · -- the job itself
      have hkey := h.key_eq (List.mem_of_find?_eq_some hfound) hself
      have huser : found.userId = job.userId := congrArg (fun key => key.2.1) hkey
      have hhub : found.hubId = job.hubId := congrArg (fun key => key.2.2) hkey
      exact huser ▸ hhub ▸ hprocessed.cleared
    · -- another job, which leaves this one's row as it is
      obtain ⟨total, hjobs⟩ := hprocessed.jobs
      rw [hjobs] at hrow
      obtain ⟨old, hold, rfl⟩ := List.mem_map.mp hrow
      have hother : old.id ≠ found.id := by
        intro hsame
        rw [ReEncryptionJob.progress, if_pos hsame] at hid
        exact hself (hsame.symm.trans hid)
      rw [ReEncryptionJob.progress, if_neg hother] at hid hdone
      exact (processReEncryptionJob_removes db jobId job.userId job.hubId).mono
        (h.cleared old hold hid hdone)

/-- Every row of the job is completed. -/
def Completed (db : Db) (jobId : String) : Prop :=
  ∀ row ∈ db.jobs, row.id = jobId → row.status = .completed
variable {row : ReEncryptionJob}

theorem progress_completed {jobId : String} {total : Nat}
    (h : row.id = jobId ∨ row.status = .completed) :
    (row.progress jobId total total).status = .completed := by
  rw [ReEncryptionJob.progress]
  split
  · exact if_pos le_rfl
  · rename_i hid
    exact h.resolve_left hid

theorem Completed.process {jobId : String} (h : Completed db jobId) (jobId' : String) :
    Completed (processReEncryptionJob db jobId') jobId := by
  rcases processReEncryptionJob_spec db jobId' with ⟨hsame, -⟩ | ⟨found, hfound, hprocessed⟩
  · rwa [hsame]
  · obtain ⟨total, hjobs⟩ := hprocessed.jobs
    intro row hrow hid
    rw [hjobs] at hrow
    obtain ⟨old, hold, rfl⟩ := List.mem_map.mp hrow
    have hkey := congrFun (ReEncryptionJob.progress_key found.id total total) old
    exact progress_completed (.inr (h old hold ((congrArg Prod.fst hkey).symm.trans hid)))

theorem JobFor.completed (h : JobFor db job) :
    Completed (processReEncryptionJob db job.id) job.id := by
  intro row hrow hid
  rcases processReEncryptionJob_spec db job.id with ⟨hsame, hdone⟩ | ⟨found, hfound, hprocessed⟩
  · rw [hsame] at hrow
    exact hdone row (h.find_eq hrow hid)
  · obtain ⟨total, hjobs⟩ := hprocessed.jobs
    rw [hjobs] at hrow
    obtain ⟨old, hold, rfl⟩ := List.mem_map.mp hrow
    have hfoundId : found.id = job.id := by simpa using List.find?_some hfound
    have hkey := congrFun (ReEncryptionJob.progress_key found.id total total) old
    exact progress_completed (.inl ((congrArg Prod.fst hkey).symm.trans (hid.trans hfoundId.symm)))

/-- **What the jobs do.** In whatever order jobs are processed, and others among them, each job that
has been is completed, and nothing that it could remove is left. -/
theorem foldl_process {order : List String} (h : JobFor db job)
    (hmem : job.id ∈ order) :
    Completed (order.foldl processReEncryptionJob db) job.id ∧
      NoneRemovable (order.foldl processReEncryptionJob db) job.userId job.hubId := by
  have hfold : ∀ (order : List String) (db : Db), JobFor db job →
      JobFor (order.foldl processReEncryptionJob db) job ∧
        (job.id ∈ order ∨ Completed db job.id →
          Completed (order.foldl processReEncryptionJob db) job.id) := by
    intro order
    induction order with
    | nil => exact fun db h => ⟨h, fun hdone => hdone.resolve_left List.not_mem_nil⟩
    | cons jobId order ih =>
      intro db h
      obtain ⟨hjob, hdone⟩ := ih _ (h.process jobId)
      refine ⟨hjob, fun hor => hdone ?_⟩
      rcases hor with hmem | hcompleted
      · rcases List.mem_cons.mp hmem with rfl | hmem
        · exact .inr h.completed
        · exact .inl hmem
      · exact .inr (hcompleted.process jobId)
  obtain ⟨hjob, hdone⟩ := hfold order db h
  have hcompleted := hdone (.inl hmem)
  obtain ⟨row, hrow, hkey⟩ := List.mem_map.mp hjob.there
  have hid : row.id = job.id := congrArg Prod.fst hkey
  exact ⟨hcompleted, hjob.cleared row hrow hid (hcompleted row hrow hid)⟩

theorem foldl_removes (order : List String) (db : Db) (userId hubId : String) :
    Removes db (order.foldl processReEncryptionJob db) userId hubId := by
  induction order generalizing db with
  | nil => exact ⟨Iff.rfl, rfl, id⟩
  | cons jobId order ih => exact (processReEncryptionJob_removes db jobId userId hubId).trans (ih _)

theorem foldl_keys (order : List String) (db : Db) :
    (order.foldl processReEncryptionJob db).jobs.map ReEncryptionJob.key =
      db.jobs.map ReEncryptionJob.key := by
  induction order generalizing db with
  | nil => rfl
  | cons jobId order ih => exact (ih _).trans (processReEncryptionJob_keys db jobId)

/-! ## An erasure with its jobs -/

/-- What `executeErasure` leaves. -/
structure Executed (db db' : Db) (userId : String) (jobIds : List String) : Prop where
  hubKeys : ∀ hubId, (hubId, userId) ∉ db'.hubKeys
  kept : ∀ hubId, KeptIn db' userId hubId ↔ KeptIn db userId hubId
  ids : (db'.jobs.map ReEncryptionJob.id).Nodup
  created : ∀ row ∈ db'.jobs, row.id ∈ jobIds →
    row.status = .queued ∧ row.userId = userId ∧
      row.hubId ∈ (hubMemberships db userId).filter (· ≠ "")
  creates : ∀ hubId ∈ (hubMemberships db userId).filter (· ≠ ""), ∃ row ∈ db'.jobs,
    row.id ∈ jobIds ∧ row.hubId = hubId
variable {hubs jobIds : List String}

theorem newJobs_ids (userId : String)
    (hlength : jobIds.length = (hubs.filter (· ≠ "")).length) :
    (newJobs userId hubs jobIds).map ReEncryptionJob.id = jobIds := by
  rw [newJobs, List.map_map]
  exact List.map_fst_zip hlength.le

theorem newJobs_hubs (userId : String)
    (hlength : jobIds.length = (hubs.filter (· ≠ "")).length) :
    (newJobs userId hubs jobIds).map ReEncryptionJob.hubId = hubs.filter (· ≠ "") := by
  rw [newJobs, List.map_map]
  exact List.map_snd_zip hlength.ge

theorem mem_newJobs
    (h : row ∈ newJobs userId hubs jobIds) :
    row.status = .queued ∧ row.userId = userId ∧ row.hubId ∈ hubs.filter (· ≠ "") := by
  obtain ⟨⟨id, hubId⟩, hmem, rfl⟩ := List.mem_map.mp h
  exact ⟨rfl, rfl, (List.of_mem_zip hmem).2⟩

theorem executeErasure_executed {jobIds : List String} {now : Int}
    (h : executeErasure db userId jobIds now = some db') : Executed db db' userId jobIds := by
  obtain ⟨⟨hlength, hnodup⟩, hdb'⟩ := Option.ite_none_right_eq_some.mp h
  obtain rfl := Option.some.inj hdb'
  have hids := newJobs_ids userId hlength
  refine ⟨fun hubId hmem => ?_, fun _ => Iff.rfl, ?_, fun row hrow hid => ?_, fun hubId hhub => ?_⟩
  · exact of_decide_eq_true (List.mem_filter.mp hmem).2 rfl
  · rwa [List.map_append, hids]
  · rcases List.mem_append.mp hrow with hold | hnew
    · -- the ids of older jobs are others
      exact absurd rfl
        ((List.nodup_append.mp hnodup).2.2 row.id (List.mem_map_of_mem hold) row.id hid)
    · exact mem_newJobs hnew
  · rw [← newJobs_hubs userId hlength] at hhub
    obtain ⟨row, hrow, hrowHub⟩ := List.mem_map.mp hhub
    exact ⟨row, List.mem_append_right _ hrow, hids ▸ List.mem_map_of_mem hrow, hrowHub⟩

theorem Executed.jobFor {jobIds : List String} (h : Executed db db' userId jobIds)
    (hrow : row ∈ db'.jobs) (hid : row.id ∈ jobIds) : JobFor db' row where
  ids := h.ids
  there := List.mem_map_of_mem hrow
  cleared row' hrow' hsame hdone := by
    obtain rfl := List.inj_on_of_nodup_map h.ids hrow' hrow hsame
    rw [(h.created row' hrow' hid).1] at hdone
    cases hdone

/-- The row of a job after all of them, and before. -/
theorem exists_row_of_keys (hkeys : db'.jobs.map ReEncryptionJob.key =
    db.jobs.map ReEncryptionJob.key) (hrow : row ∈ db.jobs) :
    ∃ row' ∈ db'.jobs, row'.id = row.id ∧ row'.userId = row.userId ∧ row'.hubId = row.hubId := by
  have hmem : row.key ∈ db'.jobs.map ReEncryptionJob.key := hkeys ▸ List.mem_map_of_mem hrow
  obtain ⟨row', hrow', hkey⟩ := List.mem_map.mp hmem
  exact ⟨row', hrow', congrArg Prod.fst hkey, congrArg (fun key => key.2.1) hkey,
    congrArg (fun key => key.2.2) hkey⟩

/-- **An erasure and its jobs take a user's envelopes out of the hubs exactly if** all of them are
in columns that jobs look at, in hubs that have a job. -/
theorem shredded_iff {jobIds order : List String} {now : Int}
    (h : executeErasure db userId jobIds now = some db') (horder : jobIds ⊆ order) :
    Shredded db (order.foldl processReEncryptionJob db') userId jobIds ↔ WithinReach db userId := by
  have hexecuted := executeErasure_executed h
  have hkeys := foldl_keys order db'
  have hafter : ∀ hubId, KeptIn (order.foldl processReEncryptionJob db') userId hubId ↔
      KeptIn db userId hubId :=
    fun hubId => (foldl_removes order db' userId hubId).kept.trans (hexecuted.kept hubId)
  -- the job of a row, before and after
  have hbefore : ∀ row ∈ (order.foldl processReEncryptionJob db').jobs, row.id ∈ jobIds →
      ∃ job ∈ db'.jobs, job.id ∈ jobIds ∧ job.hubId = row.hubId := by
    intro row hrow hid
    obtain ⟨job, hjob, hjobId, -, hhub⟩ := exists_row_of_keys hkeys.symm hrow
    exact ⟨job, hjob, hjobId ▸ hid, hhub⟩
  constructor
  · rintro ⟨hcleared, hcovered⟩
    refine ⟨fun hubId hholds => ?_, fun hubId hhub hkept => ?_⟩
    · obtain ⟨row, hrow, hid, -, rfl⟩ := hcovered hubId hholds
      obtain ⟨job, hjob, hjobId, hsame⟩ := hbefore row hrow hid
      exact hsame ▸ (hexecuted.created job hjob hjobId).2.2
    · obtain ⟨job, hjob, hid, rfl⟩ := hexecuted.creates hubId hhub
      obtain ⟨row, hrow, hrowId, -, hrowHub⟩ := exists_row_of_keys hkeys hjob
      have hdone := (foldl_process (hexecuted.jobFor hjob hid) (horder hid)).1 row hrow hrowId
      refine hcleared row hrow (hrowId ▸ hid) hdone (.inl ?_)
      exact hrowHub ▸ (hafter job.hubId).mpr hkept
  · rintro ⟨hmember, hbare⟩
    refine ⟨fun row hrow hid _ hholds => ?_, fun hubId hholds => ?_⟩
    · obtain ⟨job, hjob, hjobId, hsame⟩ := hbefore row hrow hid
      obtain ⟨-, huser, hhub⟩ := hexecuted.created job hjob hjobId
      rw [← hsame] at hholds
      rcases hholds with hkept | hremovable | hkey
      · exact hbare job.hubId hhub ((hafter job.hubId).mp hkept)
      · have hnone := (foldl_process (hexecuted.jobFor hjob hjobId) (horder hjobId)).2
        exact (huser ▸ hnone).not_removableIn hremovable
      · rw [(foldl_removes order db' userId job.hubId).hubKeys] at hkey
        exact hexecuted.hubKeys job.hubId hkey
    · obtain ⟨job, hjob, hid, rfl⟩ := hexecuted.creates hubId (hmember hubId hholds)
      obtain ⟨row, hrow, hrowId, huser, hhub⟩ := exists_row_of_keys hkeys hjob
      exact ⟨row, hrow, hrowId ▸ hid, huser.trans (hexecuted.created job hjob hid).2.1, hhub⟩

/-- A note that another user has written, with an envelope for the user, who has a hub key. -/
def othersNote : Db where
  hubKeys := [("hub", "ann"), ("hub", "bob")]
  notes := [{
    id := "note", hubId := some "hub", authorPubkey := "bob",
    authorEnvelope := some ⟨none, "enc", "ct"⟩,
    adminEnvelopes := [⟨some "ann", "enc", "ct"⟩, ⟨some "cay", "enc", "ct"⟩] }]

theorem othersNote_withinReach : WithinReach othersNote "ann" := by
  have hkept : ∀ hubId, ¬ KeptIn othersNote "ann" hubId := by
    rintro hubId (⟨note, hnote, -, hkeeps⟩ | ⟨row, hrow, -⟩)
    · obtain rfl := List.mem_singleton.mp hnote
      revert hkeeps
      unfold Note.Keeps
      decide
    · cases hrow
  refine ⟨fun hubId hholds => ?_, fun hubId _ => hkept hubId⟩
  have hhub : hubId = "hub" := by
    rcases hholds with h | (⟨note, hnote, hin, -⟩ | ⟨_, hreply, -⟩ | ⟨_, hmessage, -⟩) | hkey
    · exact absurd h (hkept hubId)
    · obtain rfl := List.mem_singleton.mp hnote
      exact (Option.some.inj (of_decide_eq_true hin)).symm
    · cases hreply
    · cases hmessage
    · simpa [othersNote] using hkey
  rw [hhub]
  decide +kernel

theorem othersNote_shredded :
    ∃ db ∈ executeErasure othersNote "ann" ["job"] 0,
      Shredded othersNote (["job"].foldl processReEncryptionJob db) "ann" ["job"] := by
  have hexecuted : (executeErasure othersNote "ann" ["job"] 0).isSome := by decide +kernel
  obtain ⟨db, hdb⟩ := Option.isSome_iff_exists.mp hexecuted
  exact ⟨db, hdb, (shredded_iff hdb (List.Subset.refl _)).mpr othersNote_withinReach⟩

/-- A note of the user's own. -/
def ownNote : Db where
  notes := [{
    id := "note", hubId := some "hub", authorPubkey := "ann",
    authorEnvelope := some ⟨none, "enc", "ct"⟩ }]

/-- **A user's envelope remains** in a note of the user's own, and the job is completed. -/
theorem ownNote_remains :
    ∃ db ∈ executeErasure ownNote "ann" ["job"] 0,
      ¬ Shredded ownNote (["job"].foldl processReEncryptionJob db) "ann" ["job"] := by
  have hremains : ∃ db ∈ executeErasure ownNote "ann" ["job"] 0,
      (∃ job ∈ (["job"].foldl processReEncryptionJob db).jobs,
        job.id ∈ ["job"] ∧ job.status = .completed ∧ job.hubId = "hub") ∧
      ∃ note ∈ (["job"].foldl processReEncryptionJob db).notes, note.inHub "hub" ∧
        ∃ envelope ∈ note.authorEnvelope, envelope.pubkey.getD note.authorPubkey = "ann" := by
    decide +kernel
  obtain ⟨db, hdb, ⟨job, hjob, hid, hdone, hhub⟩, note, hnote, hin, hauthor⟩ := hremains
  refine ⟨db, hdb, fun hshredded => hshredded.cleared job hjob hid hdone ?_⟩
  rw [hhub]
  exact .inl (.inl ⟨note, hnote, hin, .inl hauthor⟩)

end Llamenos.Worker.Erasure

import Llamenos.Worker.Audit
import Llamenos.Worker.Calls

/-!
# Retention

`executePurge` of `apps/worker/services/retention.ts`: for each row of `retention_settings`, it
deletes what is older than the hub keeps it, and logs how much that was.

A call ends in `call_records` with a status of `RecordStatus`. The purge of call records deletes
those with a status of `TERMINAL_STATUSES`, and these are others.

Results:
* `executePurge_rows`: what is left of a table is what no setting deletes.
* `not_terminal_of_finished`: no status that a call ends with is one that is purged.
* `purged_iff`: **the purge leaves exactly the records that the settings keep exactly if no expired
  record is finished, or has a status that is purged.**
* `completed_stays`: a call that ended is kept for ever.
-/

namespace Llamenos.Worker.Retention

open Llamenos.Lib
open Llamenos.Worker.Calls (RecordStatus)

/-! ## The tables -/

inductive RetentionCategory where
  | callRecords
  | notes
  | messages
  | auditLog
  deriving DecidableEq

def RetentionCategory.text : RetentionCategory → String
  | .callRecords => "call_records"
  | .notes => "notes"
  | .messages => "messages"
  | .auditLog => "audit_log"

/-- A row of `retention_settings`. -/
structure Setting where
  hubId : String
  category : RetentionCategory
  retentionDays : Int

/-- A row of `call_records`, as far as it is purged by it. -/
structure CallRecordRow where
  callId : String
  hubId : Option String
  status : String
  createdAt : Int

/-- A row of `notes`. -/
structure NoteRow where
  id : String
  hubId : Option String
  createdAt : Int

/-- A row of `messages`. -/
structure MessageRow where
  id : String
  conversationId : String
  createdAt : Int

/-- A row of `conversations`. -/
structure ConversationRow where
  id : String
  hubId : Option String

structure Db (N : Type) where
  callRecords : List CallRecordRow := []
  notes : List NoteRow := []
  messages : List MessageRow := []
  conversations : List ConversationRow := []
  auditLog : List (Audit.Row N) := []

/-- The audit log's primitives, and the integers as JSON numbers. -/
structure RetentionPrims (N : Type) extends Audit.AuditPrims N where
  number : Int → N

/-! ## `executePurge` -/

def TERMINAL_STATUSES : List String := ["ended", "missed", "no-answer", "rejected"]

/-- `DELETE … WHERE … RETURNING`, with how many rows it returns. -/
def deleteWhere {α : Type} (rows : List α) (cond : α → Bool) : List α × Nat :=
  (rows.filter fun row => !cond row, (rows.filter cond).length)

/-- The `WHERE` of the call records. -/
def callRecordGone (hubId : String) (cutoff : Int) (row : CallRecordRow) : Bool :=
  row.hubId = some hubId && row.createdAt < cutoff && TERMINAL_STATUSES.contains row.status

def noteGone (hubId : String) (cutoff : Int) (row : NoteRow) : Bool :=
  row.hubId = some hubId && row.createdAt < cutoff

def messageGone (conversations : List ConversationRow) (hubId : String) (cutoff : Int)
    (row : MessageRow) : Bool :=
  (conversations.any fun conversation =>
      conversation.hubId = some hubId && conversation.id = row.conversationId) &&
    row.createdAt < cutoff

def auditRowGone {N : Type} (hubId : String) (cutoff : Int) (row : Audit.Row N) : Bool :=
  row.hubId = some hubId && row.createdAt.getTime < cutoff

variable {N : Type}

/-- The `switch`, with `deletedCount`. -/
def deleteExpired (db : Db N) (hubId : String) (cutoff : Int) : RetentionCategory → Db N × Nat
  | .callRecords =>
    let (callRecords, deletedCount) := deleteWhere db.callRecords (callRecordGone hubId cutoff)
    ({ db with callRecords }, deletedCount)
  | .notes =>
    let (notes, deletedCount) := deleteWhere db.notes (noteGone hubId cutoff)
    ({ db with notes }, deletedCount)
  | .messages =>
    let (messages, deletedCount) :=
      deleteWhere db.messages (messageGone db.conversations hubId cutoff)
    ({ db with messages }, deletedCount)
  | .auditLog =>
    let (auditLog, deletedCount) := deleteWhere db.auditLog (auditRowGone hubId cutoff)
    ({ db with auditLog }, deletedCount)

/-- The time of a setting's cutoff, by the clock. -/
def cutoffTime (setting : Setting) (now : Int) : Int :=
  now - setting.retentionDays * 24 * 60 * 60 * 1000

/-- What the runtime gives while one setting is purged: the time at its cutoff, and the random id
and the time of the row that is logged. -/
structure Moment where
  now : Int
  id : String
  loggedAt : Int

structure PurgeResult where
  hubId : String
  category : RetentionCategory
  deletedCount : Nat
  deriving DecidableEq

variable (prims : RetentionPrims N)

/-- What is logged of a purge. -/
def purgeEntry (setting : Setting) (deletedCount : Nat) : Audit.LogCall N where
  action := "retentionPurgeExecuted"
  actorPubkey := "system"
  details := .obj [("hubId", .str setting.hubId), ("category", .str setting.category.text),
    ("deletedCount", .num (prims.number deletedCount)),
    ("retentionDays", .num (prims.number setting.retentionDays))]
  hubId := some setting.hubId

/-- The body of the loop. It throws if the cutoff is no valid date, or if `log` does. -/
def purgeSetting (db : Db N) (setting : Setting) (moment : Moment) :
    Option (Db N × Option PurgeResult) := do
  let cutoff ← newDate (cutoffTime setting moment.now)
  let (db, deletedCount) := deleteExpired db setting.hubId cutoff.getTime setting.category
  if 0 < deletedCount then
    let auditLog ← Audit.log prims.toAuditPrims db.auditLog (purgeEntry prims setting deletedCount)
      moment.id moment.loggedAt
    some ({ db with auditLog },
      some { hubId := setting.hubId, category := setting.category, deletedCount })
  else some (db, none)

/-- `executePurge`, over the settings as they have been read, in the order in which they come. -/
def executePurge (db : Db N) : List (Setting × Moment) → Option (Db N × List PurgeResult)
  | [] => some (db, [])
  | (setting, moment) :: schedule => do
    let (db, result) ← purgeSetting prims db setting moment
    let (db, results) ← executePurge db schedule
    some (db, result.toList ++ results)

/-! ## What is left of a table -/

variable {prims} {db : Db N}

/-- What the purge for a setting does: it deletes, and perhaps logs a row. -/
theorem purgeSetting_eq_some {setting : Setting} {moment : Moment}
    {t : Db N × Option PurgeResult} (h : purgeSetting prims db setting moment = some t) :
    ∃ deleted n, deleteExpired db setting.hubId (cutoffTime setting moment.now) setting.category =
        (deleted, n) ∧
      (n = 0 ∧ t.1 = deleted ∨
        0 < n ∧ ∃ auditLog, t.1 = { deleted with auditLog } ∧
          Audit.log prims.toAuditPrims deleted.auditLog (purgeEntry prims setting n) moment.id
            moment.loggedAt = some auditLog) := by
  unfold purgeSetting at h
  obtain ⟨cutoff, hcutoff, h⟩ := Option.bind_eq_some_iff.mp h
  rw [getTime_newDate hcutoff] at h
  refine ⟨_, _, rfl, ?_⟩
  dsimp only at h
  split_ifs at h with hn
  · obtain ⟨auditLog, hlog, h⟩ := Option.bind_eq_some_iff.mp h
    exact .inr ⟨hn, auditLog, (congrArg Prod.fst (Option.some.inj h)).symm, hlog⟩
  · exact .inl ⟨Nat.eq_zero_of_not_pos hn, (congrArg Prod.fst (Option.some.inj h)).symm⟩
variable {schedule : List (Setting × Moment)} {t : Db N × List PurgeResult}

theorem executePurge_cons {setting : Setting} {moment : Moment}
    (h : executePurge prims db ((setting, moment) :: schedule) = some t) :
    ∃ m, purgeSetting prims db setting moment = some m ∧
      ∃ u, executePurge prims m.1 schedule = some u ∧ t = (u.1, m.2.toList ++ u.2) := by
  rw [executePurge] at h
  obtain ⟨m, hm, h⟩ := Option.bind_eq_some_iff.mp h
  obtain ⟨u, hu, h⟩ := Option.bind_eq_some_iff.mp h
  exact ⟨m, hm, u, hu, (Option.some.inj h).symm⟩

/-- **What is left of a table is what no setting deletes**, if logging leaves the table alone. -/
theorem executePurge_rows {α : Type} (rows : Db N → List α) (gone : Setting → Int → α → Bool)
    (hdelete : ∀ (db : Db N) setting cutoff,
      rows (deleteExpired db setting.hubId cutoff setting.category).1 =
        (rows db).filter fun row => !gone setting cutoff row)
    (hlog : ∀ (db : Db N) auditLog, rows { db with auditLog } = rows db)
    (h : executePurge prims db schedule = some t) :
    rows t.1 = (rows db).filter fun row =>
      schedule.all fun entry => !gone entry.1 (cutoffTime entry.1 entry.2.now) row := by
  induction schedule generalizing db t with
  | nil =>
    rw [← Option.some.inj h]
    simp
  | cons entry schedule ih =>
    obtain ⟨setting, moment⟩ := entry
    obtain ⟨m, hm, u, hu, rfl⟩ := executePurge_cons h
    have hrows : rows m.1 = (rows db).filter fun row =>
        !gone setting (cutoffTime setting moment.now) row := by
      rw [← hdelete]
      obtain ⟨deleted, n, heq, ⟨-, hdb⟩ | ⟨-, auditLog, hdb, -⟩⟩ := purgeSetting_eq_some hm
      · rw [hdb, heq]
      · rw [hdb, heq, hlog]
    rw [ih hu, hrows, List.filter_filter]
    refine List.filter_congr fun row _ => ?_
    rw [List.all_cons, Bool.and_comm]

theorem executePurge_callRecords
    (h : executePurge prims db schedule = some t) :
    t.1.callRecords = db.callRecords.filter fun row => schedule.all fun entry =>
      !(entry.1.category = .callRecords &&
        callRecordGone entry.1.hubId (cutoffTime entry.1 entry.2.now) row) := by
  refine executePurge_rows (·.callRecords)
    (fun setting cutoff row => setting.category = .callRecords &&
      callRecordGone setting.hubId cutoff row) (fun db setting cutoff => ?_) (fun _ _ => rfl) h
  cases hcategory : setting.category <;> simp [deleteExpired, deleteWhere]

/-! ## The call records -/

/-- A status of `call_records`, as it is stored. -/
def statusText : RecordStatus → String
  | .unanswered => "unanswered"
  | .completed => "completed"

/-- A record with a status that a call ends with. -/
def Finished (row : CallRecordRow) : Prop :=
  row.status = statusText .unanswered ∨ row.status = statusText .completed

/-- A record that is older than its hub keeps it. -/
def Expired (schedule : List (Setting × Moment)) (row : CallRecordRow) : Prop :=
  ∃ entry ∈ schedule, entry.1.category = .callRecords ∧ row.hubId = some entry.1.hubId ∧
    row.createdAt < cutoffTime entry.1 entry.2.now

/-- No record is left that is finished and expired, and no other one is removed. -/
structure Purged (schedule : List (Setting × Moment)) (before after : List CallRecordRow) :
    Prop where
  removed : ∀ row ∈ after, Finished row → ¬ Expired schedule row
  kept : ∀ row ∈ before, ¬ (Finished row ∧ Expired schedule row) → row ∈ after

instance (row : CallRecordRow) : Decidable (Finished row) :=
  inferInstanceAs (Decidable (_ ∨ _))

instance (schedule : List (Setting × Moment)) (row : CallRecordRow) :
    Decidable (Expired schedule row) :=
  inferInstanceAs (Decidable (∃ entry ∈ schedule, _ ∧ _ ∧ _))

theorem finished_iff {row : CallRecordRow} :
    Finished row ↔ ∃ status : RecordStatus, row.status = statusText status := by
  constructor
  · rintro (h | h)
    · exact ⟨_, h⟩
    · exact ⟨_, h⟩
  · rintro ⟨status, h⟩
    cases status with
    | unanswered => exact .inl h
    | completed => exact .inr h

/-- **No status that a call ends with is one that is purged.** -/
theorem not_terminal_of_finished {row : CallRecordRow} (h : Finished row) :
    row.status ∉ TERMINAL_STATUSES := by
  obtain ⟨status, hstatus⟩ := finished_iff.mp h
  rw [hstatus]
  cases status <;> decide

/-- The records that are left. -/
theorem mem_purged
    (h : executePurge prims db schedule = some t) {row : CallRecordRow} :
    row ∈ t.1.callRecords ↔ row ∈ db.callRecords ∧
      ¬ (Expired schedule row ∧ row.status ∈ TERMINAL_STATUSES) := by
  rw [executePurge_callRecords h, List.mem_filter]
  refine and_congr_right fun _ => ?_
  simp only [callRecordGone, List.all_eq_true, Bool.not_eq_true', Bool.and_eq_false_iff,
    decide_eq_false_iff_not, List.contains_eq_mem, Expired]
  constructor
  · rintro hall ⟨⟨entry, hentry, hcategory, hhub, hlt⟩, hstatus⟩
    rcases hall entry hentry with hnot | (hnot | hnot) | hnot
    · exact hnot hcategory
    · exact hnot hhub
    · exact hnot hlt
    · exact hnot hstatus
  · intro hnot entry hentry
    by_contra hgone
    simp only [not_or, not_not] at hgone
    obtain ⟨hcategory, ⟨hhub, hlt⟩, hstatus⟩ := hgone
    exact hnot ⟨⟨entry, hentry, hcategory, hhub, hlt⟩, hstatus⟩

/-- **The purge leaves exactly the records that the settings keep exactly if no expired record is
finished, or has a status that is purged.** -/
theorem purged_iff {schedule : List (Setting × Moment)} {t : Db N × List PurgeResult}
    (h : executePurge prims db schedule = some t) :
    Purged schedule db.callRecords t.1.callRecords ↔
      ∀ row ∈ db.callRecords, Expired schedule row →
        ¬ Finished row ∧ row.status ∉ TERMINAL_STATUSES := by
  constructor
  · intro hpurged row hrow hexpired
    have hnot : ¬ Finished row := fun hfinished => hpurged.removed row
      ((mem_purged h).mpr ⟨hrow, fun hgone => not_terminal_of_finished hfinished hgone.2⟩)
      hfinished hexpired
    refine ⟨hnot, fun hstatus => ?_⟩
    exact ((mem_purged h).mp (hpurged.kept row hrow fun hgone => hnot hgone.1)).2
      ⟨hexpired, hstatus⟩
  · intro hall
    refine ⟨fun row hrow hfinished hexpired => ?_, fun row hrow _ => ?_⟩
    · exact (hall row ((mem_purged h).mp hrow).1 hexpired).1 hfinished
    · exact (mem_purged h).mpr ⟨hrow, fun hgone => (hall row hrow hgone.1).2 hgone.2⟩

/-! A hub keeps its records for thirty days. -/

def samplePrims : RetentionPrims Int where
  toAuditPrims := Audit.samplePrims []
  number n := n

/-- A purge on the fiftieth day. -/
def sampleSchedule : List (Setting × Moment) :=
  [({ hubId := "hub", category := .callRecords, retentionDays := 30 },
      { now := 4320000000, id := "e0", loggedAt := 4320000001 }),
    ({ hubId := "hub", category := .notes, retentionDays := 30 },
      { now := 4320000002, id := "e1", loggedAt := 4320000003 })]

/-- A call on the fortieth day, and one that another hub had on the first; and notes. -/
def sampleDb : Db Int where
  callRecords :=
    [{ callId := "c0", hubId := some "hub", status := "completed", createdAt := 3456000000 },
      { callId := "c1", hubId := some "other", status := "unanswered", createdAt := 0 }]
  notes :=
    [{ id := "n0", hubId := some "hub", createdAt := 0 },
      { id := "n1", hubId := some "hub", createdAt := 3456000000 }]

theorem sample_purged : ∃ t, executePurge samplePrims sampleDb sampleSchedule = some t ∧
    t.2 = [{ hubId := "hub", category := .notes, deletedCount := 1 }] ∧
      Purged sampleSchedule sampleDb.callRecords t.1.callRecords := by
  have hsome : ((executePurge samplePrims sampleDb sampleSchedule).map Prod.snd) =
      some [{ hubId := "hub", category := .notes, deletedCount := 1 }] := by
    decide +kernel
  obtain ⟨t, ht, hresults⟩ := Option.map_eq_some_iff.mp hsome
  exact ⟨t, ht, hresults, (purged_iff ht).mpr (by decide)⟩

/-- **A call that ended is kept for ever**: here one of the first day, on the fiftieth. -/
theorem completed_stays :
    ∃ t, executePurge samplePrims { callRecords := [⟨"c0", some "hub", "completed", 0⟩] }
        sampleSchedule = some t ∧
      t.2 = [] ∧ t.1.callRecords = [⟨"c0", some "hub", "completed", 0⟩] ∧
      ¬ Purged sampleSchedule [⟨"c0", some "hub", "completed", 0⟩] t.1.callRecords := by
  refine ⟨_, rfl, rfl, rfl, fun h => ?_⟩
  exact h.removed _ (List.mem_singleton_self _) (by decide) (by decide)

end Llamenos.Worker.Retention

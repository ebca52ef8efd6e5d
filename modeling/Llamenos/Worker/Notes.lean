import Mathlib.Logic.Function.Basic

/-!
# Notes and contact metadata

`createNote` and `upsertContactMeta` of `RecordsService` (`apps/worker/services/records.ts`), over
the tables of `apps/worker/db/schema/records.ts`. The note is inserted by one statement, and the
metadata of its contact, if a hash is given, by the next; each is a transaction of its own. The key
of the metadata has a hub in it, which is never null there, but may be for a note.

A statement may fail for a reason of the database's own, the connection or its storage, and then it
leaves the tables as they are.

Results:
* `createNote_stores`: what is there when a note is returned.
* `allOrNothing_iff`: **nothing is left behind exactly if the second statement does not fail after
  the first**.
* `note_left_behind`: a note with a contact and without a hub.
-/

namespace Llamenos.Worker.Notes

/-! ## The tables -/

/-- A row of `notes`; the envelopes are JSON texts. -/
structure NoteRow where
  id : String
  hubId : Option String
  authorPubkey : String
  callId : Option String
  conversationId : Option String
  contactHash : Option String
  encryptedContent : String
  encryptedFields : Option String
  fieldEnvelopes : Option String
  authorEnvelope : String
  adminEnvelopes : List String
  replyCount : Int
  createdAt : Int
  updatedAt : Int

/-- A row of `contact_metadata`, without its key. -/
structure ContactMeta where
  firstSeen : Int
  lastSeen : Int
  noteCount : Int

/-- The metadata is kept by the hash and the hub of a contact. -/
structure Db where
  notes : String → Option NoteRow := fun _ => none
  contactMetadata : String × Option String → Option ContactMeta := fun _ => none

structure CreateNoteInput where
  hubId : Option String := none
  authorPubkey : String
  callId : Option String := none
  conversationId : Option String := none
  contactHash : Option String := none
  encryptedContent : String
  encryptedFields : Option String := none
  fieldEnvelopes : Option String := none
  authorEnvelope : String
  adminEnvelopes : Option (List String) := none
  createdAt : Option Int := none

/-- What a statement throws. -/
inductive DbError where
  | unavailable
  | uniqueViolation
  | notNullViolation
  | outOfRange

/-- The largest value of a column of type `integer`. -/
def INT_MAX : Int := 2147483647

/-! ## The statements -/

/-- The row of a new note, with the id that is drawn for it. -/
def noteRow (input : CreateNoteInput) (id : String) (now : Int) : NoteRow where
  id := id
  hubId := input.hubId
  authorPubkey := input.authorPubkey
  callId := input.callId
  conversationId := input.conversationId
  contactHash := input.contactHash
  encryptedContent := input.encryptedContent
  encryptedFields := input.encryptedFields
  fieldEnvelopes := input.fieldEnvelopes
  authorEnvelope := input.authorEnvelope
  adminEnvelopes := input.adminEnvelopes.getD []
  replyCount := 0
  createdAt := input.createdAt.getD now
  updatedAt := input.createdAt.getD now

/-- The `INSERT` of `createNote`. -/
def insertNote (db : Db) (note : NoteRow) (fails : Bool) : Except DbError Db :=
  if fails then .error .unavailable
  else
    match db.notes note.id with
    | some _ => .error .uniqueViolation
    | none => .ok { db with notes := Function.update db.notes note.id (some note) }

/-- `upsertContactMeta`. -/
def upsertContactMeta (db : Db) (contactHash : String) (hubId : Option String)
    (noteCreatedAt : Int) (fails : Bool) : Except DbError Db :=
  let store (row : ContactMeta) : Db :=
    { db with
      contactMetadata := Function.update db.contactMetadata (contactHash, hubId) (some row) }
  if fails then .error .unavailable
  else
    match hubId with
    | none => .error .notNullViolation
    | some _ =>
      match db.contactMetadata (contactHash, hubId) with
      | none => .ok (store ⟨noteCreatedAt, noteCreatedAt, 1⟩)
      | some row =>
        if INT_MAX < row.noteCount + 1 then .error .outOfRange
        else .ok (store ⟨min row.firstSeen noteCreatedAt, max row.lastSeen noteCreatedAt,
          row.noteCount + 1⟩)

/-- `createNote`: what it returns or throws, and the tables after it. The two flags tell which of
the statements fail of themselves. -/
def createNote (db : Db) (input : CreateNoteInput) (id : String) (now : Int)
    (insertFails upsertFails : Bool) : Except DbError NoteRow × Db :=
  let note := noteRow input id now
  match insertNote db note insertFails with
  | .error err => (.error err, db)
  | .ok db' =>
    if input.contactHash.getD "" ≠ "" then
      match upsertContactMeta db' (input.contactHash.getD "") input.hubId note.createdAt
        upsertFails with
      | .error err => (.error err, db')
      | .ok db'' => (.ok note, db'')
    else (.ok note, db')

/-! ## Purpose -/

/-- The metadata of a contact counts the note, and was seen when the note was made. -/
structure Counted (db db' : Db) (key : String × Option String) (note : NoteRow) : Prop where
  stored : ∃ row, db'.contactMetadata key = some row ∧
    row.noteCount = ((db.contactMetadata key).map ContactMeta.noteCount).getD 0 + 1 ∧
      row.firstSeen ≤ note.createdAt ∧ note.createdAt ≤ row.lastSeen
  others : ∀ other, other ≠ key → db'.contactMetadata other = db.contactMetadata other

/-- The note is stored, and the metadata of its contact, if a hash is given. -/
structure Stored (db db' : Db) (input : CreateNoteInput) (note : NoteRow) : Prop where
  stored : db'.notes note.id = some note
  fromInput : ∃ now, note = noteRow input note.id now
  others : ∀ id, id ≠ note.id → db'.notes id = db.notes id
  contact : ∀ hash, input.contactHash = some hash → hash ≠ "" →
    Counted db db' (hash, input.hubId) note

/-- A note is stored and returned, or nothing is. -/
def AllOrNothing (db : Db) (input : CreateNoteInput) : Except DbError NoteRow × Db → Prop
  | (.error _, db') => db' = db
  | (.ok note, db') => Stored db db' input note

/-- The first statement fails, there is no second one, or that does not fail. -/
def NoLateFailure (db : Db) (input : CreateNoteInput) (id : String)
    (insertFails upsertFails : Bool) : Prop :=
  (insertFails = true ∨ (db.notes id).isSome) ∨ input.contactHash.getD "" = "" ∨
    input.hubId.isSome ∧ upsertFails = false ∧
      ∀ row, db.contactMetadata (input.contactHash.getD "", input.hubId) = some row →
        row.noteCount < INT_MAX

/-! ## What each statement does -/

variable {db db' : Db} {input : CreateNoteInput} {id hash : String} {hubId : Option String}
  {note : NoteRow} {now : Int} {fails insertFails upsertFails : Bool}

theorem insertNote_eq_ok : insertNote db note fails = .ok db' ↔
    (fails = false ∧ db.notes note.id = none) ∧
      db' = { db with notes := Function.update db.notes note.id (some note) } := by
  unfold insertNote
  cases fails <;> cases db.notes note.id <;> simp [eq_comm]

theorem insertNote_fails : (∃ err, insertNote db note fails = .error err) ↔
    fails = true ∨ (db.notes note.id).isSome := by
  unfold insertNote
  cases fails <;> cases db.notes note.id <;> simp

theorem upsertContactMeta_ok (h : upsertContactMeta db hash hubId note.createdAt fails = .ok db') :
    db'.notes = db.notes ∧ Counted db db' (hash, hubId) note := by
  unfold upsertContactMeta at h
  dsimp only at h
  split at h
  · cases h
  · split at h
    · cases h
    next hub =>
      split at h
      next hrow =>
        obtain rfl := Except.ok.inj h
        refine ⟨rfl, ⟨_, Function.update_self .., ?_, Int.le_refl _, Int.le_refl _⟩,
          fun other hother => ?_⟩
        · rw [hrow]
          rfl
        · exact Function.update_of_ne hother ..
      next row hrow =>
        split at h
        · cases h
        · obtain rfl := Except.ok.inj h
          refine ⟨rfl, ⟨_, Function.update_self .., ?_, Int.min_le_right _ _, Int.le_max_right _ _⟩,
            fun other hother => ?_⟩
          · rw [hrow]
            rfl
          · exact Function.update_of_ne hother ..

theorem upsertContactMeta_fails :
    (∃ err, upsertContactMeta db hash hubId now fails = .error err) ↔
      ¬ (hubId.isSome ∧ fails = false ∧
        ∀ row, db.contactMetadata (hash, hubId) = some row → row.noteCount < INT_MAX) := by
  unfold upsertContactMeta
  dsimp only
  cases fails with
  | true => simp
  | false =>
    cases hubId with
    | none => simp
    | some hub =>
      cases hrow : db.contactMetadata (hash, some hub) with
      | none => simp
      | some row =>
        have hmax : INT_MAX < row.noteCount + 1 ↔ ¬ row.noteCount < INT_MAX := by omega
        by_cases h : row.noteCount < INT_MAX <;> simp [hmax, h]

theorem upsertContactMeta_fails_after {db₁ : Db}
    (hinsert : insertNote db note insertFails = .ok db₁) :
    (∃ err, upsertContactMeta db₁ hash hubId now fails = .error err) ↔
      ¬ (hubId.isSome ∧ fails = false ∧
        ∀ row, db.contactMetadata (hash, hubId) = some row → row.noteCount < INT_MAX) := by
  obtain ⟨-, rfl⟩ := insertNote_eq_ok.mp hinsert
  exact upsertContactMeta_fails

/-! ## The method -/

/-- The ways the method goes. -/
inductive Course (db : Db) (input : CreateNoteInput) (note : NoteRow)
    (insertFails upsertFails : Bool) : Except DbError NoteRow × Db → Prop
  | notInserted (err : DbError) (hinsert : insertNote db note insertFails = .error err) :
      Course db input note insertFails upsertFails (.error err, db)
  | noContact (db₁ : Db) (hinsert : insertNote db note insertFails = .ok db₁)
      (hhash : input.contactHash.getD "" = "") :
      Course db input note insertFails upsertFails (.ok note, db₁)
  | notUpserted (db₁ : Db) (err : DbError) (hinsert : insertNote db note insertFails = .ok db₁)
      (hhash : input.contactHash.getD "" ≠ "")
      (hupsert : upsertContactMeta db₁ (input.contactHash.getD "") input.hubId note.createdAt
        upsertFails = .error err) :
      Course db input note insertFails upsertFails (.error err, db₁)
  | done (db₁ db₂ : Db) (hinsert : insertNote db note insertFails = .ok db₁)
      (hhash : input.contactHash.getD "" ≠ "")
      (hupsert : upsertContactMeta db₁ (input.contactHash.getD "") input.hubId note.createdAt
        upsertFails = .ok db₂) :
      Course db input note insertFails upsertFails (.ok note, db₂)

theorem createNote_course (db : Db) (input : CreateNoteInput) (id : String) (now : Int)
    (insertFails upsertFails : Bool) :
    Course db input (noteRow input id now) insertFails upsertFails
      (createNote db input id now insertFails upsertFails) := by
  unfold createNote
  dsimp only
  cases hinsert : insertNote db (noteRow input id now) insertFails with
  | error err => exact .notInserted err hinsert
  | ok db₁ =>
    dsimp only
    by_cases hhash : input.contactHash.getD "" = ""
    · rw [if_neg fun h => h hhash]
      exact .noContact db₁ hinsert hhash
    · rw [if_pos hhash]
      cases hupsert : upsertContactMeta db₁ (input.contactHash.getD "") input.hubId
        (noteRow input id now).createdAt upsertFails with
      | error err => exact .notUpserted db₁ err hinsert hhash hupsert
      | ok db₂ => exact .done db₁ db₂ hinsert hhash hupsert

/-- A note that is inserted, with the metadata of its contact. -/
theorem stored_of_inserted {db₁ : Db} (hnote : note = noteRow input note.id now)
    (hinsert : insertNote db note insertFails = .ok db₁) (hnotes : db'.notes = db₁.notes)
    (hcontact : ∀ hash, input.contactHash = some hash → hash ≠ "" →
      Counted db₁ db' (hash, input.hubId) note) : Stored db db' input note := by
  obtain ⟨-, rfl⟩ := insertNote_eq_ok.mp hinsert
  refine ⟨?_, ⟨now, hnote⟩, fun other hother => ?_, fun hash hhash hne => ?_⟩
  · rw [hnotes]
    exact Function.update_self ..
  · rw [hnotes]
    exact Function.update_of_ne hother ..
  · obtain ⟨hstored, hothers⟩ := hcontact hash hhash hne
    exact ⟨hstored, hothers⟩

/-- **What is there when a note is returned.** -/
theorem createNote_stores
    (h : createNote db input id now insertFails upsertFails = (.ok note, db')) :
    Stored db db' input note := by
  have hcourse := createNote_course db input id now insertFails upsertFails
  rw [h] at hcourse
  cases hcourse with
  | noContact _ hinsert hhash =>
    refine stored_of_inserted rfl hinsert rfl fun hash hsome hne => ?_
    rw [hsome] at hhash
    exact absurd hhash hne
  | done db₁ _ hinsert hhash hupsert =>
    obtain ⟨hnotes, hcounted⟩ := upsertContactMeta_ok hupsert
    refine stored_of_inserted rfl hinsert hnotes fun hash hsome hne => ?_
    rwa [hsome] at hcounted

/-- **Nothing is left behind exactly if the second statement does not fail after the first.** -/
theorem allOrNothing_iff (db : Db) (input : CreateNoteInput) (id : String) (now : Int)
    (insertFails upsertFails : Bool) :
    AllOrNothing db input (createNote db input id now insertFails upsertFails) ↔
      NoLateFailure db input id insertFails upsertFails := by
  have hcourse := createNote_course db input id now insertFails upsertFails
  cases hresult : createNote db input id now insertFails upsertFails with
  | mk result db' =>
  rw [hresult] at hcourse
  cases hcourse with
  | notInserted err hinsert =>
    exact iff_of_true rfl (.inl (insertNote_fails.mp ⟨err, hinsert⟩))
  | noContact _ hinsert hhash => exact iff_of_true (createNote_stores hresult) (.inr (.inl hhash))
  | done db₁ _ hinsert hhash hupsert =>
    refine iff_of_true (createNote_stores hresult) (.inr (.inr ?_))
    by_contra hlate
    obtain ⟨err, herr⟩ := (upsertContactMeta_fails_after hinsert).mpr hlate
    rw [hupsert] at herr
    cases herr
  | notUpserted db₁ err hinsert hhash hupsert =>
    obtain ⟨⟨hinsertFails, hfree⟩, hdb⟩ := insertNote_eq_ok.mp hinsert
    have hlate := (upsertContactMeta_fails_after hinsert).mp ⟨err, hupsert⟩
    refine iff_of_false (fun hsame : db' = db => ?_) ?_
    · have hnote : db'.notes id = some (noteRow input id now) := by
        rw [hdb]
        exact Function.update_self ..
      rw [hsame] at hnote
      exact absurd (hfree.symm.trans hnote) (by simp)
    · rintro ((hfails | htaken) | hnone | hcond)
      · rw [hinsertFails] at hfails
        cases hfails
      · rw [show db.notes id = none from hfree] at htaken
        cases htaken
      · exact hhash hnone
      · exact hlate hcond

/-- A note of a contact, of no hub. -/
def ofNoHub : CreateNoteInput where
  authorPubkey := "amy"
  contactHash := some "contact"
  encryptedContent := "…"
  authorEnvelope := "{}"

/-- **A note with a contact and without a hub is left behind**: the key of the metadata has no hub,
so that the second statement always fails. -/
theorem note_left_behind :
    (createNote {} ofNoHub "note" 0 false false).1 = .error .notNullViolation ∧
      ¬ AllOrNothing {} ofNoHub (createNote {} ofNoHub "note" 0 false false) := by
  refine ⟨rfl, fun hsame => ?_⟩
  have hnote : (createNote {} ofNoHub "note" 0 false false).2.notes "note" =
      some (noteRow ofNoHub "note" 0) := rfl
  rw [show (createNote {} ofNoHub "note" 0 false false).2 = {} from hsame] at hnote
  cases hnote

end Llamenos.Worker.Notes

import Llamenos.Lib.Pointers
import Llamenos.Worker.Cases.Counters
import Mathlib

/-!
# Records that are merged

A merge moves what is linked to the secondary record to the primary one, and leaves a pointer from
the one to the other. It moves the links to contacts and to reports by their primary keys, which
forbid what is linked to both records, and it does not move the links to events. It looks at no
pointer, so a record may be merged into one that is merged into it, or into itself; and `delete`
leaves the pointers to the record that goes.

Results:
* `unites_iff`: **a merge of two unmerged records unites them exactly if no contact and no report is
  linked to both, and no event to the secondary one**.
* `call_resolves_iff`: an operation keeps the pointers right exactly if it meets `Grounded`.
* `merges_right_iff`: **the pointers are right in every state of a run exactly if all its operations
  do**, and merges unite as above in each of them.
* `merges_wrong`: two records that have a contact in common, and two that are merged into each
  other.
-/

namespace Llamenos.Worker.Cases

open Llamenos.Lib Llamenos.Lib.Counters

variable {db : Db}

/-! ## The property -/

/-- The records are two of the hub, and neither is merged. -/
def Mergeable (db : Db) (hubId primaryId secondaryId : String) : Prop :=
  primaryId ≠ secondaryId ∧
    (db.recordOfHub primaryId hubId).map CaseRecord.mergedIntoId = some none ∧
    (db.recordOfHub secondaryId hubId).map CaseRecord.mergedIntoId = some none

instance (db : Db) (hubId primaryId secondaryId : String) :
    Decidable (Mergeable db hubId primaryId secondaryId) := inferInstanceAs (Decidable (_ ∧ _ ∧ _))

/-- What a record shares with others. -/
inductive Kind where
  | contact
  | report
  | event

/-- What is linked to the record. -/
def Db.linked (db : Db) (caseId : String) : Kind → List String
  | .contact => (db.caseContacts.filter fun link => link.caseId = caseId).map CaseContact.contactId
  | .report => (db.reportCases.filter fun link => link.caseId = caseId).map ReportCase.reportId
  | .event => (db.caseEvents.filter fun link => link.caseId = caseId).map CaseEvent.eventId

def Db.interactionsOf (db : Db) (caseId : String) : List String :=
  (db.caseInteractions.filter fun row => row.caseId = caseId).map Interaction.id

def Db.evidenceOf (db : Db) (caseId : String) : List String :=
  (db.evidence.filter fun row => row.caseId = caseId).map Evidence.id

/-- The links are those of the one and of the other, and none is there twice. -/
def IsUnion (links first second : List String) : Prop :=
  links.Nodup ∧ ∀ id, id ∈ links ↔ id ∈ first ∨ id ∈ second

/-- The primary has got what is linked to either, and the secondary has nothing left. -/
structure United (db db' : Db) (primaryId secondaryId : String) : Prop where
  linked : ∀ kind,
    IsUnion (db'.linked primaryId kind) (db.linked primaryId kind) (db.linked secondaryId kind)
  interactions : (db'.interactionsOf primaryId).Perm
    (db.interactionsOf primaryId ++ db.interactionsOf secondaryId)
  evidence : (db'.evidenceOf primaryId).Perm (db.evidenceOf primaryId ++ db.evidenceOf secondaryId)
  unlinked : ∀ kind, db'.linked secondaryId kind = []
  noInteractions : db'.interactionsOf secondaryId = []
  noEvidence : db'.evidenceOf secondaryId = []

/-- The merge succeeds, and unites the records. -/
def Unites (db : Db) (hubId primaryId secondaryId : String) (now : Int) : Prop :=
  (∃ response, (mergeRecords db hubId primaryId secondaryId now).2 = .ok response) ∧
    United db (mergeRecords db hubId primaryId secondaryId now).1 primaryId secondaryId

/-- No contact and no report is linked to both records, and no event to the secondary. -/
def Apart (db : Db) (primaryId secondaryId : String) : Prop :=
  (db.linked primaryId .contact).Disjoint (db.linked secondaryId .contact) ∧
    (db.linked primaryId .report).Disjoint (db.linked secondaryId .report) ∧
    db.linked secondaryId .event = []

/-- What the record is merged into, if it is there. -/
def Db.mergedInto (db : Db) (id : String) : Option (Option String) :=
  (db.record id).map CaseRecord.mergedIntoId

/-- From every record, the pointers lead to one that is not merged. -/
def Resolves (db : Db) : Prop := ∀ record ∈ db.caseRecords, Pointers.Ends db.mergedInto record.id

/-- What an operation must be, to keep the pointers right: a merge that finds both records, and that
no primary key forbids, is into a record that is not merged into the secondary one, directly or by
way of others; nothing is merged into a record that is deleted. -/
def Grounded (db : Db) : Op → Prop
  | .mergeRecords hubId primaryId secondaryId _ =>
    db.recordOfHub primaryId hubId = none ∨ db.recordOfHub secondaryId hubId = none ∨
      Forbidden db primaryId secondaryId ∨ ¬ Pointers.Leads db.mergedInto primaryId secondaryId
  | .delete id => ∀ other, ¬ Pointers.Points db.mergedInto other id
  | _ => True

/-! ## What a merge moves -/

section Merge

variable {hubId primaryId secondaryId : String} {now : Int}

/-- A contact is linked to a record once, and so are a report and an event. -/
theorem linked_nodup (hdb : Sound db) (caseId : String) (kind : Kind) :
    (db.linked caseId kind).Nodup := by
  cases kind with
  | contact =>
    refine (hdb.contacts.filter _).map_on fun link hlink other hother heq => ?_
    simp only [List.mem_filter, decide_eq_true_eq] at hlink hother
    cases link
    cases other
    simp_all
  | report =>
    refine (hdb.reportCases.filter _).map_on fun link hlink other hother heq => ?_
    simp only [List.mem_filter, decide_eq_true_eq] at hlink hother
    cases link
    cases other
    simp_all
  | event =>
    refine (hdb.caseEvents.filter _).map_on fun link hlink other hother heq => ?_
    simp only [List.mem_filter, decide_eq_true_eq] at hlink hother
    cases link
    cases other
    simp_all

theorem relinkContacts_nodup_iff (hdb : Sound db) (hne : primaryId ≠ secondaryId) :
    (relinkContacts db.caseContacts primaryId secondaryId).Nodup ↔
      (db.linked primaryId .contact).Disjoint (db.linked secondaryId .contact) := by
  refine moved_nodup_iff hne ?_ ?_ ?_ hdb.contacts
  · exact fun _ => rfl
  · exact fun _ => rfl
  · rintro ⟨caseId, contactId⟩ ⟨caseId', contactId'⟩ rfl rfl
    rfl

theorem relinkReports_nodup_iff (hdb : Sound db) (hne : primaryId ≠ secondaryId) :
    (relinkReports db.reportCases primaryId secondaryId).Nodup ↔
      (db.linked primaryId .report).Disjoint (db.linked secondaryId .report) := by
  refine moved_nodup_iff hne ?_ ?_ ?_ hdb.reportCases
  · exact fun _ => rfl
  · exact fun _ => rfl
  · rintro ⟨reportId, caseId⟩ ⟨reportId', caseId'⟩ rfl rfl
    rfl

/-- What two records have that share none. -/
theorem isUnion_of_perm {links first second : List String} (h : links.Perm (first ++ second))
    (hfirst : first.Nodup) (hsecond : second.Nodup) (hdisjoint : first.Disjoint second) :
    IsUnion links first second :=
  ⟨h.nodup_iff.mpr (hfirst.append hsecond hdisjoint), fun _ => h.mem_iff.trans List.mem_append⟩

/-- **What the transaction leaves.** -/
theorem merged_united (hdb : Sound db) (hne : primaryId ≠ secondaryId)
    (hapart : Apart db primaryId secondaryId) (contacts interactions evidence : Nat) :
    United db (merged db primaryId secondaryId now contacts interactions evidence) primaryId
      secondaryId := by
  obtain ⟨hcontacts, hreports, hevents⟩ := hapart
  refine ⟨fun kind => ?_, ?_, ?_, fun kind => ?_, ?_, ?_⟩
  · have hnodup := linked_nodup hdb primaryId kind
    have hnodup' := linked_nodup hdb secondaryId kind
    cases kind with
    | contact =>
      refine isUnion_of_perm (moved_perm hne ?_ ?_ _) hnodup hnodup' hcontacts
      · exact fun _ => rfl
      · exact fun _ => rfl
    | report =>
      refine isUnion_of_perm (moved_perm hne ?_ ?_ _) hnodup hnodup' hreports
      · exact fun _ => rfl
      · exact fun _ => rfl
    | event =>
      rw [hevents]
      refine ⟨hnodup, fun id => ?_⟩
      simp [Db.linked, merged, Db.updateRecord]
  · refine moved_perm hne ?_ ?_ _
    · exact fun _ => rfl
    · exact fun _ => rfl
  · refine moved_perm hne ?_ ?_ _
    · exact fun _ => rfl
    · exact fun _ => rfl
  · cases kind with
    | contact => exact List.map_eq_nil_iff.mpr (moved_none hne fun _ => rfl)
    | report => exact List.map_eq_nil_iff.mpr (moved_none hne fun _ => rfl)
    | event => exact hevents
  · exact List.map_eq_nil_iff.mpr (moved_none hne fun _ => rfl)
  · exact List.map_eq_nil_iff.mpr (moved_none hne fun _ => rfl)

theorem Mergeable.found (h : Mergeable db hubId primaryId secondaryId) :
    ∃ primary secondary, db.recordOfHub primaryId hubId = some primary ∧
      db.recordOfHub secondaryId hubId = some secondary ∧ secondary.hubId = primary.hubId := by
  obtain ⟨-, hprimary, hsecondary⟩ := h
  obtain ⟨primary, hprimary, -⟩ := Option.map_eq_some_iff.mp hprimary
  obtain ⟨secondary, hsecondary, -⟩ := Option.map_eq_some_iff.mp hsecondary
  exact ⟨primary, secondary, hprimary, hsecondary,
    (recordOfHub_spec hsecondary).2.2.trans (recordOfHub_spec hprimary).2.2.symm⟩

/-- **Two unmerged records are united exactly if they are apart.** -/
theorem unites_iff (hdb : Sound db) (h : Mergeable db hubId primaryId secondaryId) :
    Unites db hubId primaryId secondaryId now ↔ Apart db primaryId secondaryId := by
  have hne := h.1
  obtain ⟨primary, secondary, hprimary, hsecondary, hhub⟩ := h.found
  have hcontacts := relinkContacts_nodup_iff hdb hne
  have hreports := relinkReports_nodup_iff hdb hne
  unfold Unites mergeRecords
  rw [hprimary, hsecondary]
  dsimp only
  rw [if_neg (not_not.mpr hhub)]
  split_ifs with hc hr
  · constructor
    · rintro ⟨-, hunited⟩
      exact ⟨hcontacts.mp hc, hreports.mp hr, hunited.unlinked .event⟩
    · intro hapart
      exact ⟨⟨_, rfl⟩, merged_united hdb hne hapart _ _ _⟩
  · refine iff_of_false (fun hok => ?_) fun hapart => hr (hreports.mpr hapart.2.1)
    obtain ⟨⟨response, hok⟩, -⟩ := hok
    cases hok
  · refine iff_of_false (fun hok => ?_) fun hapart => hc (hcontacts.mpr hapart.1)
    obtain ⟨⟨response, hok⟩, -⟩ := hok
    cases hok

end Merge

/-! ## Where the pointers lead -/

/-- The ids of the records, each with what the record is merged into. -/
def Db.pointers (db : Db) : List (String × Option String) :=
  db.caseRecords.map fun record => (record.id, record.mergedIntoId)

theorem mergedInto_eq (db : Db) (id : String) :
    db.mergedInto id = (db.pointers.find? fun pointer => pointer.1 = id).map Prod.snd := by
  unfold Db.pointers
  rw [List.find?_map, Option.map_map]
  rfl

theorem mergedInto_congr {db' : Db} (h : db'.pointers = db.pointers) :
    db'.mergedInto = db.mergedInto := by
  funext id
  rw [mergedInto_eq, mergedInto_eq, h]
variable {id : String}

theorem mergedInto_ne_none :
    db.mergedInto id ≠ none ↔ ∃ record ∈ db.caseRecords, record.id = id := by
  simp [Db.mergedInto, Db.record]

theorem resolves_iff : Resolves db ↔ Pointers.AllEnd db.mergedInto := by
  constructor
  · intro h id hid
    obtain ⟨record, hrecord, rfl⟩ := mergedInto_ne_none.mp hid
    exact h record hrecord
  · intro h record hrecord
    exact h record.id (mergedInto_ne_none.mpr ⟨record, hrecord, rfl⟩)

theorem resolves_congr {db' : Db} (hdb : Resolves db) (h : db'.pointers = db.pointers) :
    Resolves db' := by
  rw [resolves_iff, mergedInto_congr h]
  exact resolves_iff.mp hdb

/-- A record comes that is merged into none. -/
theorem resolves_insert {db' : Db} (hdb : Resolves db) (hid : Unused db id)
    (h : db'.pointers = db.pointers ++ [(id, none)]) : Resolves db' := by
  have hinto : db'.mergedInto = Function.update db.mergedInto id (some none) := by
    funext other
    rw [mergedInto_eq, h, List.find?_append]
    by_cases hother : other = id
    · have hnone : db.pointers.find? (fun pointer => pointer.1 = id) = none := by
        refine List.find?_eq_none.mpr fun pointer hpointer hname => hid.records ?_
        obtain ⟨record, hrecord, rfl⟩ := List.mem_map.mp hpointer
        exact of_decide_eq_true hname ▸ List.mem_map_of_mem hrecord
      rw [hother, Function.update_self, hnone]
      simp
    · rw [Function.update_of_ne hother, mergedInto_eq]
      simp [Ne.symm hother]
  rw [resolves_iff, hinto]
  exact Pointers.allEnd_insert (resolves_iff.mp hdb) id

/-- A record goes. -/
theorem resolves_remove_iff {db' : Db} (hdb : Resolves db)
    (h : db'.pointers = db.pointers.filter fun pointer => pointer.1 ≠ id) :
    Resolves db' ↔ ∀ other, ¬ Pointers.Points db.mergedInto other id := by
  have hinto : db'.mergedInto = Function.update db.mergedInto id none := by
    funext other
    rw [mergedInto_eq, h, List.find?_filter]
    by_cases hother : other = id
    · rw [hother, Function.update_self]
      simp
    · rw [Function.update_of_ne hother, mergedInto_eq]
      congr 2
      funext pointer
      by_cases hpointer : pointer.1 = other
      · simp [hpointer, hother]
      · simp [hpointer]
  rw [resolves_iff, hinto]
  exact Pointers.allEnd_remove_iff (resolves_iff.mp hdb)

/-- A record that is there is merged into another. -/
theorem resolves_link_iff {db' : Db} (hdb : Resolves db) {primaryId secondaryId : String}
    (hprimary : db.mergedInto primaryId ≠ none) (hsecondary : db.mergedInto secondaryId ≠ none)
    (h : db'.pointers =
      update Prod.fst db.pointers secondaryId fun pointer => (pointer.1, some primaryId)) :
    Resolves db' ↔ ¬ Pointers.Leads db.mergedInto primaryId secondaryId := by
  have hinto : db'.mergedInto =
      Function.update db.mergedInto secondaryId (some (some primaryId)) := by
    funext other
    rw [mergedInto_eq, h]
    unfold update
    rw [List.find?_map]
    have hname : ((fun pointer => decide (pointer.1 = other)) ∘
        fun pointer : String × Option String =>
          if pointer.1 = secondaryId then (pointer.1, some primaryId) else pointer) =
        fun pointer => decide (pointer.1 = other) := by
      funext pointer
      by_cases hpointer : pointer.1 = secondaryId <;> simp [hpointer]
    rw [hname]
    by_cases hother : other = secondaryId
    · rw [hother, Function.update_self]
      rw [mergedInto_eq] at hsecondary
      obtain ⟨into, hinto⟩ := Option.ne_none_iff_exists'.mp hsecondary
      obtain ⟨pointer, hpointer, rfl⟩ := Option.map_eq_some_iff.mp hinto
      have hfound : pointer.1 = secondaryId := by simpa using List.find?_some hpointer
      rw [hpointer]
      simp [hfound]
    · rw [Function.update_of_ne hother, mergedInto_eq]
      cases hfind : db.pointers.find? fun pointer => pointer.1 = other with
      | none => rfl
      | some pointer =>
        have hfound : pointer.1 = other := by simpa using List.find?_some hfind
        simp [hfound, hother]
  rw [resolves_iff, hinto]
  exact Pointers.allEnd_link_iff (resolves_iff.mp hdb) hprimary

/-! ## Every operation -/

@[simp] theorem pointers_updateRecord (db : Db) (id : String) {set : CaseRecord → CaseRecord}
    (hset : ∀ record, ((set record).id, (set record).mergedIntoId) =
      (record.id, record.mergedIntoId)) : (db.updateRecord id set).pointers = db.pointers :=
  map_update _ db.caseRecords id hset

theorem create_resolves (hdb : Resolves db) (hid : Unused db id)
    (input : CreateInput) : Resolves (create db id input).1 := by
  have hinserted : ∀ links : List CaseContact, Resolves
      { db with caseRecords := db.caseRecords ++ [input.record id], caseContacts := links } :=
    fun links => resolves_insert hdb hid (by simp [Db.pointers, CreateInput.record])
  unfold create
  dsimp only
  split_ifs with htaken hlinks hnodup
  · exact hdb
  · exact hinserted _
  · exact resolves_congr (hinserted _) (pointers_updateRecord _ _ fun _ => rfl)
  · exact hinserted _

theorem convertFromReport_resolves (hdb : Resolves db) (hid : Unused db id)
    (interactionId : String) (input : ConvertInput) :
    Resolves (convertFromReport db id interactionId input).1 := by
  unfold convertFromReport
  split_ifs with hfound htaken
  · exact hdb
  · exact resolves_insert hdb hid (by simp [Db.pointers, ConvertInput.record])
  · exact hdb

theorem delete_resolves_iff (hdb : Resolves db) (id : String) :
    Resolves (delete db id).1 ↔ Grounded db (.delete id) := by
  unfold delete
  cases hfound : db.record id with
  | none =>
    refine iff_of_true hdb fun other hother => ?_
    have hall := Pointers.allEnd_remove_iff (k := id) (resolves_iff.mp hdb)
    have hnone : db.mergedInto id = none := by rw [Db.mergedInto, hfound, Option.map_none]
    rw [← hnone, Function.update_eq_self] at hall
    exact hall.mp (resolves_iff.mp hdb) other hother
  | some record =>
    refine resolves_remove_iff hdb ?_
    simp only [Db.pointers, List.filter_map]
    rfl

theorem mergeRecords_resolves_iff (hdb : Resolves db) (hubId primaryId secondaryId : String)
    (now : Int) :
    Resolves (mergeRecords db hubId primaryId secondaryId now).1 ↔
      Grounded db (.mergeRecords hubId primaryId secondaryId now) := by
  unfold mergeRecords Grounded
  split
  · rename_i hprimary
    exact iff_of_true hdb (.inl hprimary)
  · rename_i hsecondary
    exact iff_of_true hdb (.inr (.inl hsecondary))
  · rename_i primary secondary hprimary hsecondary
    obtain ⟨hmem, hid, hhub⟩ := recordOfHub_spec hprimary
    obtain ⟨hmem', hid', hhub'⟩ := recordOfHub_spec hsecondary
    rw [if_neg (not_not.mpr (hhub'.trans hhub.symm))]
    simp only [hprimary, hsecondary, reduceCtorEq, false_or]
    split_ifs with hcontacts hreports
    · have hallowed : ¬ Forbidden db primaryId secondaryId :=
        not_or.mpr ⟨not_not.mpr hcontacts, not_not.mpr hreports⟩
      rw [or_iff_right hallowed]
      refine resolves_link_iff hdb (mergedInto_ne_none.mpr ⟨primary, hmem, hid⟩)
        (mergedInto_ne_none.mpr ⟨secondary, hmem', hid'⟩) ?_
      unfold merged
      rw [pointers_updateRecord]
      · unfold Db.pointers Db.updateRecord update
        rw [List.map_map, List.map_map]
        refine List.map_congr_left fun record _ => ?_
        by_cases hrecord : record.id = secondaryId <;> simp [hrecord]
      · exact fun _ => rfl
    · exact iff_of_true hdb (.inl (.inr hreports))
    · exact iff_of_true hdb (.inl (.inl hcontacts))

/-- The operations that touch no pointer. -/
def Aside : Op → Prop
  | .create .. | .delete .. | .mergeRecords .. | .convertFromReport .. => False
  | _ => True

theorem call_pointers {op : Op} (h : Aside op) : (call db op).pointers = db.pointers := by
  have hset : ∀ (db' : Db) (id : String) (set : CaseRecord → CaseRecord),
      db'.pointers = db.pointers → (∀ record, ((set record).id, (set record).mergedIntoId) =
        (record.id, record.mergedIntoId)) → (db'.updateRecord id set).pointers = db.pointers :=
    fun db' id _ hdb' hset => (pointers_updateRecord db' id hset).trans hdb'
  cases op with
  | create _ _ | delete _ | mergeRecords _ _ _ _ | convertFromReport _ _ _ => exact h.elim
  | update id interactionId input =>
    dsimp only [call, updateCase]
    split
    · rfl
    · split <;> exact hset _ _ _ rfl fun _ => rfl
  | linkContact caseId contactId =>
    dsimp only [call, linkContact]
    split
    · rfl
    · split_ifs
      · rfl
      · exact hset _ _ _ rfl fun _ => rfl
  | unlinkContact caseId contactId =>
    dsimp only [call, unlinkContact]
    split
    · rfl
    · split_ifs
      · exact hset _ _ _ rfl fun _ => rfl
      · rfl
  | createEvent id input => rfl
  | updateEvent id input =>
    dsimp only [call, updateEvent]
    split <;> rfl
  | deleteEvent id =>
    dsimp only [call, deleteEvent]
    split
    · rfl
    · exact map_dropEvent _ _ (fun _ => rfl) _ _
  | linkEvent caseId eventId hubId =>
    dsimp only [call, linkEvent]
    split
    · rfl
    · rfl
    · rename_i target _ _
      split_ifs
      · rfl
      · cases target <;> exact hset _ _ _ rfl fun _ => rfl
  | unlinkEvent caseId eventId hubId =>
    dsimp only [call, unlinkEvent]
    split
    · rfl
    · rename_i target _
      split_ifs
      · cases target <;> exact hset _ _ _ rfl fun _ => rfl
      · rfl
  | linkReportEvent reportId eventId hubId =>
    dsimp only [call, linkReportEvent]
    split
    · rfl
    · rename_i target _
      split_ifs
      · rfl
      · cases target with
        | legacy => rfl
        | record => exact hset _ _ _ rfl fun _ => rfl
  | unlinkReportEvent reportId eventId hubId =>
    dsimp only [call, unlinkReportEvent]
    split
    · rfl
    · rename_i target _
      split_ifs
      · cases target with
        | legacy => rfl
        | record => exact hset _ _ _ rfl fun _ => rfl
      · rfl
  | linkReportCase caseId reportId =>
    dsimp only [call, linkReportCase]
    split
    · rfl
    · split_ifs
      · rfl
      · exact hset _ _ _ rfl fun _ => rfl
  | unlinkReportCase caseId reportId =>
    dsimp only [call, unlinkReportCase]
    split_ifs
    · exact hset _ _ _ rfl fun _ => rfl
    · rfl
  | createInteraction id caseId input =>
    dsimp only [call, createInteraction]
    split
    · rfl
    · exact hset _ _ _ rfl fun _ => rfl
  | deleteInteraction caseId interactionId =>
    dsimp only [call, deleteInteraction]
    split_ifs
    · exact hset _ _ _ rfl fun _ => rfl
    · rfl
  | createEvidence id caseId fileId =>
    dsimp only [call, createEvidence]
    split
    · rfl
    · exact hset _ _ _ rfl fun _ => rfl
  | others entityTypes conversations => rfl

/-- **An operation keeps the pointers right exactly if it meets the condition.** -/
theorem call_resolves_iff (hdb : Resolves db) {op : Op} (hdrawn : ∀ id ∈ op.drawn, Unused db id) :
    Resolves (call db op) ↔ Grounded db op := by
  by_cases haside : Aside op
  · refine iff_of_true (resolves_congr hdb (call_pointers haside)) ?_
    cases op <;> trivial
  · cases op with
    | create id input =>
      exact iff_of_true (create_resolves hdb (hdrawn id List.mem_cons_self) input) trivial
    | convertFromReport id interactionId input =>
      exact iff_of_true
        (convertFromReport_resolves hdb (hdrawn id List.mem_cons_self) interactionId input) trivial
    | delete id => exact delete_resolves_iff hdb id
    | mergeRecords hubId primaryId secondaryId now =>
      exact mergeRecords_resolves_iff hdb hubId primaryId secondaryId now
    | _ => exact absurd trivial haside

theorem start_resolves (entityTypes : List EntityType) (conversations : List Conversation) :
    Resolves (start entityTypes conversations) := nofun

/-- **In every state of a run, two unmerged records are united exactly if they are apart; and the
pointers are right in all of them exactly if no merge closes a circle, and no deletion leaves a
pointer behind.** -/
theorem merges_right_iff {entityTypes : List EntityType} {conversations : List Conversation}
    {ops : List Op} (h : Runs.run step (start entityTypes conversations) ops = some db) :
    (∀ hubId primaryId secondaryId now, Mergeable db hubId primaryId secondaryId →
      (Unites db hubId primaryId secondaryId now ↔ Apart db primaryId secondaryId)) ∧
    ((∀ before after db, ops = before ++ after →
        Runs.run step (start entityTypes conversations) before = some db → Resolves db) ↔
      Runs.Along step Grounded (start entityTypes conversations) ops) := by
  constructor
  · intro hubId primaryId secondaryId now hmergeable
    refine unites_iff (Runs.run_inv (I := Sound) (fun db op db' hsound hstep => ?_)
      (start_sound _ _) h) hmergeable
    obtain ⟨hdrawn, rfl⟩ := step_spec hstep
    exact call_sound hsound hdrawn
  · refine Runs.inv_iff_along (I := fun _ => True) (fun _ _ _ _ _ => trivial)
      (fun db op db' _ hdb hstep => ?_) trivial (start_resolves _ _) h
    obtain ⟨hdrawn, rfl⟩ := step_spec hstep
    exact call_resolves_iff hdb hdrawn

/-- The record that others are merged into is itself none of those, and nothing is merged into a
record that is deleted; no operation looks. -/
def Plain (db : Db) : Op → Prop
  | .mergeRecords _ primaryId secondaryId _ =>
    primaryId ≠ secondaryId ∧ db.mergedInto primaryId = some none
  | .delete id => ∀ record ∈ db.caseRecords, record.mergedIntoId ≠ some id
  | _ => True

instance : DecidableRel Plain := fun db op => by
  induction op using Op.casesOn <;> unfold Plain <;> infer_instance

theorem Plain.grounded {op : Op} (h : Plain db op) : Grounded db op := by
  cases op with
  | mergeRecords hubId primaryId secondaryId now =>
    obtain ⟨hne, hend⟩ := h
    exact .inr (.inr (.inr fun hleads => hne ((Pointers.leads_end_iff hend).mp hleads)))
  | delete id =>
    intro other hpoints
    obtain ⟨record, hrecord, hinto⟩ := Option.map_eq_some_iff.mp hpoints
    exact h record (record_spec hrecord).1 hinto
  | _ => trivial

/-- Three records of a hub. -/
def three : List Op :=
  [.create "a" { hubId := "hub", statusHash := "open", contactLinks := ["ann", "bea"] },
    .create "b" { hubId := "hub", statusHash := "open", contactLinks := ["cai"] },
    .create "c" { hubId := "hub", statusHash := "open", contactLinks := ["cai", "dot"] },
    .linkReportCase "a" "report", .createEvidence "photo" "a" "file"]

/-- One after the other is merged into the next, and the first of them deleted. -/
theorem three_merged :
    ∃ db, Runs.run step (start [] []) (three ++ [.mergeRecords "hub" "b" "a" 0, .delete "a"]) =
        some db ∧
      ¬ Unites db "hub" "c" "b" 1 ∧
      ∀ before after db, three ++ [.mergeRecords "hub" "b" "a" 0, .delete "a"] = before ++ after →
        Runs.run step (start [] []) before = some db → Resolves db := by
  obtain ⟨db, hdb, hmergeable, hshared⟩ : ∃ db ∈ Runs.run step (start [] [])
      (three ++ [.mergeRecords "hub" "b" "a" 0, .delete "a"]), Mergeable db "hub" "c" "b" ∧
      "cai" ∈ db.linked "c" .contact ∧ "cai" ∈ db.linked "b" .contact := by
    decide +kernel
  have hright := merges_right_iff hdb
  refine ⟨db, hdb, fun h => ?_, hright.2.mpr (Runs.Along.mono (fun _ _ => Plain.grounded)
    (P := Plain) (by decide +kernel))⟩
  exact ((hright.1 "hub" "c" "b" 1 hmergeable).mp h).1 hshared.1 hshared.2

/-- **A contact in common, and a merge back.** The database forbids to merge two records that share
a contact, and two records can be merged each into the other. -/
theorem merges_wrong :
    (∃ db ∈ Runs.run step (start [] []) three, Mergeable db "hub" "b" "c" ∧
      ∀ response, (mergeRecords db "hub" "b" "c" 0).2 ≠ .ok response) ∧
    ∃ db ∈ Runs.run step (start [] [])
      (three ++ [.mergeRecords "hub" "a" "b" 0, .mergeRecords "hub" "b" "a" 0]), ¬ Resolves db := by
  constructor
  · obtain ⟨db, hdb, hmergeable, herror⟩ : ∃ db ∈ Runs.run step (start [] []) three,
        Mergeable db "hub" "b" "c" ∧ (mergeRecords db "hub" "b" "c" 0).2 =
          .error (.unique "case_contacts_case_id_contact_id_pk") := by
      decide +kernel
    refine ⟨db, hdb, hmergeable, fun response hok => ?_⟩
    rw [herror] at hok
    cases hok
  · obtain ⟨db, hdb, ⟨record, hrecord, hid⟩, hab, hba⟩ : ∃ db ∈ Runs.run step (start [] [])
        (three ++ [.mergeRecords "hub" "a" "b" 0, .mergeRecords "hub" "b" "a" 0]),
        (∃ record ∈ db.caseRecords, record.id = "a") ∧ db.mergedInto "a" = some (some "b") ∧
          db.mergedInto "b" = some (some "a") := by
      decide +kernel
    refine ⟨db, hdb, fun h => ?_⟩
    exact Pointers.not_ends_of_circle hab (.single hba) (hid ▸ h record hrecord)

end Llamenos.Worker.Cases

import Llamenos.Worker.Contacts.Rows

/-!
# What a bulk action changes

A bulk action looks up which of the contacts named are of the hub and not deleted, and reports
their number. It deletes these, or adds or removes their memberships, of any group whatever; the
tags it sets for the contacts of the hub that the payload names, whether or not they are among
these.

Results:
* `setTags_eq`: what the tags are set to.
* `bulk_right_iff`: **when a bulk action changes only contacts and groups it may, and reports as
  many as it has written**.
* `others_tagged`: a deleted contact that is not named, whose tags are set.
-/

namespace Llamenos.Worker.Contacts

open Llamenos.Lib Llamenos.Lib.Counters

/-! ## Purpose -/

/-- A contact of the hub that is named, and not deleted. -/
def Db.Valid (db : Db) (hubId : String) (contactIds : List String) (id : String) : Prop :=
  ∃ contact ∈ db.contacts, contact.id = id ∧ contact.hubId = hubId ∧ contact.deletedAt = none ∧
    id ∈ contactIds

def Db.GroupOf (db : Db) (groupId hubId : String) : Prop :=
  ∃ group ∈ db.affinityGroups, group.id = groupId ∧ group.hubId = hubId

/-- The contacts whose tags, membership or deletion state the statements of an action write. -/
def written (db : Db) (hubId : String) (contactIds : List String) : BulkAction → List String
  | .delete => db.validIds hubId contactIds
  | .addTags indexes | .removeTags indexes =>
    (db.contacts.filter fun contact =>
      contact.hubId = hubId && (indexes.map Prod.fst).contains contact.id).map Contact.id
  | .addToGroup groupId =>
    (db.validIds hubId contactIds).filter fun id => !decide (db.HasMember groupId id)
  | .removeFromGroup groupId =>
    (db.validIds hubId contactIds).filter fun id => db.HasMember groupId id
  | .setRiskLevel => []

/-- What a bulk action changes, and how many it reports. -/
structure BulkRight (db : Db) (hubId : String) (contactIds : List String) (action : BulkAction)
    (now : Int) : Prop where
  contacts : ∀ id, (bulkAction db hubId contactIds action now).1.contact id ≠ db.contact id →
    db.Valid hubId contactIds id
  members : ∀ groupId id,
    ¬ ((bulkAction db hubId contactIds action now).1.HasMember groupId id ↔
      db.HasMember groupId id) → db.Valid hubId contactIds id ∧ db.GroupOf groupId hubId
  others : (bulkAction db hubId contactIds action now).1.contactRelationships =
      db.contactRelationships ∧
    (bulkAction db hubId contactIds action now).1.affinityGroups = db.affinityGroups
  affected : (bulkAction db hubId contactIds action now).2 =
    .ok (written db hubId contactIds action).length

/-- The tags that the payload has for a contact, the last ones. -/
def lastTags (indexes : List (String × List String)) (id : String) : Option (List String) :=
  (indexes.filter fun index => index.1 = id).getLast?.map Prod.snd

/-- An action that keeps to what it may. -/
def Careful (db : Db) (hubId : String) (contactIds : List String) : BulkAction → Prop
  | .delete => True
  | .addTags indexes | .removeTags indexes =>
    (∀ contact ∈ db.contacts, contact.hubId = hubId → ∀ tags ∈ lastTags indexes contact.id,
      tags ≠ contact.tagHashes → contact.deletedAt = none ∧ contact.id ∈ contactIds) ∧
    (db.contacts.filter fun contact =>
      contact.hubId = hubId && (indexes.map Prod.fst).contains contact.id).length =
      (db.validIds hubId contactIds).length
  | .addToGroup groupId =>
    ∀ id, db.Valid hubId contactIds id → db.GroupOf groupId hubId ∧ ¬ db.HasMember groupId id
  | .removeFromGroup groupId =>
    ∀ id, db.Valid hubId contactIds id → db.GroupOf groupId hubId ∧ db.HasMember groupId id
  | .setRiskLevel => ∀ id, ¬ db.Valid hubId contactIds id

/-! ## What the statements do to a contact -/

variable {db : Db} {hubId : String} {contactIds : List String} {now : Int}

theorem mem_validIds_iff {id : String} :
    id ∈ db.validIds hubId contactIds ↔ db.Valid hubId contactIds id := by
  unfold Db.validIds Db.Valid
  simp only [List.mem_map, List.mem_filter, Bool.and_eq_true, List.contains_iff_mem,
    decide_eq_true_eq, Option.isNone_iff_eq_none]
  constructor
  · rintro ⟨contact, ⟨hcontact, ⟨hid, hhub⟩, hlive⟩, rfl⟩
    exact ⟨contact, hcontact, rfl, hhub, hlive, hid⟩
  · rintro ⟨contact, hcontact, rfl, hhub, hlive, hid⟩
    exact ⟨contact, ⟨hcontact, ⟨hid, hhub⟩, hlive⟩, rfl⟩

theorem contact_of_mem (hdb : Sound db) {contact : Contact} (h : contact ∈ db.contacts) :
    db.contact contact.id = some contact := by
  cases hfind : db.contact contact.id with
  | none => exact absurd (List.mem_map_of_mem h) (contact_eq_none.mp hfind)
  | some other =>
    have hid : other.id = contact.id := by simpa using List.find?_some hfind
    exact congrArg some
      (List.inj_on_of_nodup_map hdb.contactIds (List.mem_of_find?_eq_some hfind) h hid)

/-- A contact after all have been set. -/
theorem contact_map {set : Contact → Contact} (hset : ∀ contact, (set contact).id = contact.id)
    (id : String) : Db.contact { db with contacts := db.contacts.map set } id =
      (db.contact id).map set := by
  have hsame : (fun contact => decide (contact.id = id)) ∘ set =
      fun contact => decide (contact.id = id) := by
    funext contact
    simp [hset]
  unfold Db.contact
  rw [List.find?_map, hsame]

/-- Which contacts a setting changes. -/
theorem contact_map_ne_iff (hdb : Sound db) {set : Contact → Contact}
    (hset : ∀ contact, (set contact).id = contact.id) {P : String → Prop} :
    (∀ id, Db.contact { db with contacts := db.contacts.map set } id ≠ db.contact id → P id) ↔
      ∀ contact ∈ db.contacts, set contact ≠ contact → P contact.id := by
  simp only [contact_map hset]
  constructor
  · intro h contact hcontact hne
    refine h contact.id ?_
    rw [contact_of_mem hdb hcontact, Option.map_some]
    exact fun heq => hne (Option.some.inj heq)
  · intro h id hne
    cases hfind : db.contact id with
    | none =>
      rw [hfind] at hne
      exact absurd rfl hne
    | some contact =>
      rw [hfind, Option.map_some] at hne
      have hid : contact.id = id := by simpa using List.find?_some hfind
      exact hid ▸ h contact (List.mem_of_find?_eq_some hfind) fun heq => hne (congrArg some heq)

/-- What the tags of a contact are set to. -/
def tagged (hubId : String) (indexes : List (String × List String)) (contact : Contact) : Contact :=
  if contact.hubId = hubId then
    { contact with tagHashes := (lastTags indexes contact.id).getD contact.tagHashes }
  else contact

theorem lastTags_concat (indexes : List (String × List String)) (index : String × List String)
    (id : String) : lastTags (indexes ++ [index]) id =
      if index.1 = id then some index.2 else lastTags indexes id := by
  unfold lastTags
  rw [List.filter_append, List.filter_singleton]
  split_ifs with h <;> simp_all

/-- **What the tags are set to**: the last that the payload has for a contact. -/
theorem setTags_eq (contacts : List Contact) (hubId : String)
    (indexes : List (String × List String)) :
    setTags contacts hubId indexes = contacts.map (tagged hubId indexes) := by
  induction indexes using List.reverseRecOn with
  | nil =>
    have hid : tagged hubId [] = id := by
      funext contact
      unfold tagged
      split_ifs <;> rfl
    rw [hid, List.map_id]
    rfl
  | append_singleton indexes index ih =>
    have hconcat : setTags contacts hubId (indexes ++ [index]) =
        update Contact.id (setTags contacts hubId indexes) index.1 fun contact =>
          if contact.hubId = hubId then { contact with tagHashes := index.2 } else contact :=
      List.foldl_concat ..
    rw [hconcat, ih, update, List.map_map]
    refine List.map_congr_left fun contact _ => ?_
    simp only [Function.comp, tagged, lastTags_concat]
    by_cases hhub : contact.hubId = hubId
    · by_cases hindex : index.1 = contact.id
      · simp [hhub, hindex]
      · simp [hhub, hindex, Ne.symm hindex]
    · simp [hhub]

/-! ## The actions -/

/-- **A deletion is right**. -/
theorem delete_right (hdb : Sound db) : BulkRight db hubId contactIds .delete now where
  contacts := by
    refine (contact_map_ne_iff hdb fun contact => ?_).mpr fun contact _ hne => ?_
    · split_ifs <;> rfl
    · by_contra hvalid
      refine hne (if_neg fun h => hvalid ?_)
      exact mem_validIds_iff.mp (List.contains_iff_mem.mp h)
  members := fun _ _ hne => absurd Iff.rfl hne
  others := ⟨rfl, rfl⟩
  affected := rfl

theorem tagged_ne_iff (indexes : List (String × List String)) (contact : Contact) :
    tagged hubId indexes contact ≠ contact ↔
      contact.hubId = hubId ∧ ∃ tags ∈ lastTags indexes contact.id, tags ≠ contact.tagHashes := by
  unfold tagged
  cases htags : lastTags indexes contact.id with
  | none => simp
  | some tags =>
    obtain ⟨id, hub, hashes, name, trigrams, kind, tagHashes, merged, deleted⟩ := contact
    simp

theorem tags_right_iff (hdb : Sound db) (indexes : List (String × List String)) :
    BulkRight db hubId contactIds (.addTags indexes) now ↔
      Careful db hubId contactIds (.addTags indexes) := by
  have hafter : (bulkAction db hubId contactIds (.addTags indexes) now).1 =
      { db with contacts := db.contacts.map (tagged hubId indexes) } := by
    rw [← setTags_eq]
    rfl
  have hid : ∀ contact, (tagged hubId indexes contact).id = contact.id := by
    intro contact
    unfold tagged
    split_ifs <;> rfl
  have hcontacts : (∀ id, (bulkAction db hubId contactIds (.addTags indexes) now).1.contact id ≠
      db.contact id → db.Valid hubId contactIds id) ↔
        ∀ contact ∈ db.contacts, contact.hubId = hubId → ∀ tags ∈ lastTags indexes contact.id,
          tags ≠ contact.tagHashes → contact.deletedAt = none ∧ contact.id ∈ contactIds := by
    rw [hafter, contact_map_ne_iff hdb hid]
    refine forall₂_congr fun contact hcontact => ?_
    rw [tagged_ne_iff]
    constructor
    · intro h hhub tags htags hne
      obtain ⟨other, hother, hsame, -, hlive, hnamed⟩ := h ⟨hhub, tags, htags, hne⟩
      exact ⟨List.inj_on_of_nodup_map hdb.contactIds hother hcontact hsame ▸ hlive, hnamed⟩
    · rintro h ⟨hhub, tags, htags, hne⟩
      obtain ⟨hlive, hnamed⟩ := h hhub tags htags hne
      exact ⟨contact, hcontact, rfl, hhub, hlive, hnamed⟩
  constructor
  · intro h
    exact ⟨hcontacts.mp h.contacts, (List.length_map _).symm.trans (Except.ok.inj h.affected).symm⟩
  · intro h
    refine ⟨hcontacts.mpr h.1, fun groupId id hne => absurd ?_ hne, ?_, ?_⟩
    · rw [hafter]
      exact Iff.rfl
    · rw [hafter]
      exact ⟨rfl, rfl⟩
    · exact congrArg Except.ok (h.2.symm.trans (List.length_map _).symm)

/-- Membership after rows have been inserted for those named. -/
theorem hasMember_addToGroup {groupId groupId' id : String} :
    (bulkAction db hubId contactIds (.addToGroup groupId) now).1.HasMember groupId' id ↔
      db.HasMember groupId' id ∨ groupId' = groupId ∧ db.Valid hubId contactIds id := by
  simp only [bulkAction, Db.HasMember, List.mem_append, List.mem_filter, List.mem_map,
    decide_eq_true_eq, GroupMember.mk.injEq, ← mem_validIds_iff]
  constructor
  · rintro (h | ⟨⟨contactId, hvalid, rfl, rfl⟩, -⟩)
    · exact .inl h
    · exact .inr ⟨rfl, hvalid⟩
  · rintro (h | ⟨rfl, hvalid⟩)
    · exact .inl h
    · by_cases hmember : GroupMember.mk groupId' id ∈ db.groupMembers
      · exact .inl hmember
      · exact .inr ⟨⟨id, hvalid, rfl, rfl⟩, hmember⟩

/-- Membership after the rows of those named have been deleted. -/
theorem hasMember_removeFromGroup {groupId groupId' id : String} :
    (bulkAction db hubId contactIds (.removeFromGroup groupId) now).1.HasMember groupId' id ↔
      db.HasMember groupId' id ∧ ¬ (groupId' = groupId ∧ db.Valid hubId contactIds id) := by
  simp only [bulkAction, Db.HasMember, List.mem_filter, decide_eq_true_eq,
    List.contains_iff_mem, mem_validIds_iff, and_comm]

theorem addToGroup_right_iff (groupId : String) :
    BulkRight db hubId contactIds (.addToGroup groupId) now ↔
      Careful db hubId contactIds (.addToGroup groupId) := by
  have hcount : (bulkAction db hubId contactIds (.addToGroup groupId) now).2 =
      .ok (written db hubId contactIds (.addToGroup groupId)).length ↔
        ∀ id, db.Valid hubId contactIds id → ¬ db.HasMember groupId id := by
    have hlength : (bulkAction db hubId contactIds (.addToGroup groupId) now).2 =
        .ok (db.validIds hubId contactIds).length := rfl
    rw [hlength, Except.ok.injEq, eq_comm, written, List.length_filter_eq_length_iff]
    simp only [mem_validIds_iff, Bool.not_eq_true', decide_eq_false_iff_not]
  constructor
  · intro h id hvalid
    have hnot := hcount.mp h.affected id hvalid
    refine ⟨(h.members groupId id fun hsame => hnot ?_).2, hnot⟩
    exact hsame.mp (hasMember_addToGroup.mpr (.inr ⟨rfl, hvalid⟩))
  · intro h
    refine ⟨fun _ hne => absurd rfl hne, fun groupId' id hne => ?_, ⟨rfl, rfl⟩,
      hcount.mpr fun id hvalid => (h id hvalid).2⟩
    rw [hasMember_addToGroup] at hne
    by_contra hright
    refine hne ⟨?_, .inl⟩
    rintro (hmember | ⟨rfl, hvalid⟩)
    · exact hmember
    · exact absurd ⟨hvalid, (h id hvalid).1⟩ hright

theorem removeFromGroup_right_iff (groupId : String) :
    BulkRight db hubId contactIds (.removeFromGroup groupId) now ↔
      Careful db hubId contactIds (.removeFromGroup groupId) := by
  have hcount : (bulkAction db hubId contactIds (.removeFromGroup groupId) now).2 =
      .ok (written db hubId contactIds (.removeFromGroup groupId)).length ↔
        ∀ id, db.Valid hubId contactIds id → db.HasMember groupId id := by
    have hlength : (bulkAction db hubId contactIds (.removeFromGroup groupId) now).2 =
        .ok (db.validIds hubId contactIds).length := rfl
    rw [hlength, Except.ok.injEq, eq_comm, written, List.length_filter_eq_length_iff]
    simp only [mem_validIds_iff, decide_eq_true_eq]
  constructor
  · intro h id hvalid
    have hmember := hcount.mp h.affected id hvalid
    refine ⟨(h.members groupId id fun hsame => ?_).2, hmember⟩
    exact (hasMember_removeFromGroup.mp (hsame.mpr hmember)).2 ⟨rfl, hvalid⟩
  · intro h
    refine ⟨fun _ hne => absurd rfl hne, fun groupId' id hne => ?_, ⟨rfl, rfl⟩,
      hcount.mpr fun id hvalid => (h id hvalid).2⟩
    rw [hasMember_removeFromGroup] at hne
    by_contra hright
    refine hne ⟨And.left, fun hmember => ⟨hmember, ?_⟩⟩
    rintro ⟨rfl, hvalid⟩
    exact hright ⟨hvalid, (h id hvalid).1⟩

theorem setRiskLevel_right_iff :
    BulkRight db hubId contactIds .setRiskLevel now ↔
      Careful db hubId contactIds .setRiskLevel := by
  have hcount : (bulkAction db hubId contactIds .setRiskLevel now).2 =
      .ok (written db hubId contactIds .setRiskLevel).length ↔
        ∀ id, ¬ db.Valid hubId contactIds id := by
    have hlength : (bulkAction db hubId contactIds .setRiskLevel now).2 =
        .ok (db.validIds hubId contactIds).length := rfl
    rw [hlength, Except.ok.injEq, written, List.length_nil, List.length_eq_zero_iff,
      List.eq_nil_iff_forall_not_mem]
    simp only [mem_validIds_iff]
  exact ⟨fun h => hcount.mp h.affected, fun h => ⟨fun _ hne => absurd rfl hne,
    fun _ _ hne => absurd Iff.rfl hne, ⟨rfl, rfl⟩, hcount.mpr h⟩⟩

/-- **When a bulk action changes only what it may**, and reports as many as it has written. -/
theorem bulk_right_iff (hdb : Sound db) (action : BulkAction) :
    BulkRight db hubId contactIds action now ↔ Careful db hubId contactIds action := by
  cases action with
  | delete => exact iff_of_true (delete_right hdb) trivial
  | addTags indexes => exact tags_right_iff hdb indexes
  | removeTags indexes =>
    -- The two take the same branch.
    have hsame : BulkRight db hubId contactIds (.removeTags indexes) now ↔
        BulkRight db hubId contactIds (.addTags indexes) now :=
      ⟨fun h => ⟨h.contacts, h.members, h.others, h.affected⟩,
        fun h => ⟨h.contacts, h.members, h.others, h.affected⟩⟩
    exact hsame.trans (tags_right_iff hdb indexes)
  | addToGroup groupId => exact addToGroup_right_iff groupId
  | removeFromGroup groupId => exact removeFromGroup_right_iff groupId
  | setRiskLevel => exact setRiskLevel_right_iff

/-- Ann and Bea are of the hub `h`, Bea is deleted. -/
def annAndBea : Db where
  contacts := [{ id := "ann", hubId := "h" }, { id := "bea", hubId := "h", deletedAt := some 5 }]
  affinityGroups := [{ id := "family", hubId := "h" }]

theorem annAndBea_sound : Sound annAndBea := ⟨by decide, by decide⟩

/-- Both are named for a group of the hub; Ann alone gets in. -/
theorem ann_joins :
    BulkRight annAndBea "h" ["ann", "bea", "ann", "cleo"] (.addToGroup "family") 9 :=
  (bulk_right_iff annAndBea_sound _).mpr fun id hvalid => by
    obtain ⟨contact, hcontact, rfl, -⟩ := hvalid
    exact ⟨⟨_, List.mem_singleton.mpr rfl, rfl, rfl⟩, by simp [annAndBea, Db.HasMember]⟩

/-- Ann alone is named; the tags of Bea, who is deleted, are set. -/
theorem others_tagged : ¬ BulkRight annAndBea "h" ["ann"] (.addTags [("bea", ["red"])]) 9 := by
  intro h
  obtain ⟨contact, hcontact, hid, -, -, hnamed⟩ := h.contacts "bea" (by decide)
  simp at hnamed

end Llamenos.Worker.Contacts

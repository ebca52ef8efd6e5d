import Llamenos.Worker.Contacts

/-!
# What the operations write

Whether an operation writes depends on which rows it finds. Each is said here once, with what it
writes then; the rows' own conditions are those of the primary keys.

Results:
* `updateContact_fst`, `delete_fst`, `createRelationship_fst`, `deleteRelationship_fst`,
  `createGroup_fst`, `deleteGroup_fst`, `addMember_fst`, `removeMember_fst`, `mergeContacts_fst`:
  the database after the operation.
* `call_sound`: no operation violates a primary key.
* `relinkMembers_nodup_iff`: a merge violates one exactly if the two are in one group.
-/

namespace Llamenos.Worker.Contacts

open Llamenos.Lib Llamenos.Lib.Counters

variable {db db' : Db}

/-! ## Which rows there are -/

/-- There is a contact of that id, deleted or not. -/
def Db.Known (db : Db) (id : String) : Prop := id ∈ db.contacts.map Contact.id

/-- There is one that is not deleted. -/
def Db.Live (db : Db) (id : String) : Prop :=
  ∃ contact ∈ db.contacts, contact.id = id ∧ contact.deletedAt = none

/-- There is one of the hub. -/
def Db.InHub (db : Db) (id hubId : String) : Prop :=
  ∃ contact ∈ db.contacts, contact.id = id ∧ contact.hubId = hubId

def Db.HasGroup (db : Db) (id : String) : Prop := id ∈ db.affinityGroups.map AffinityGroup.id

/-- The two are members of one group. -/
def Db.Together (db : Db) (primaryId secondaryId : String) : Prop :=
  primaryId ≠ secondaryId ∧ ∃ member ∈ db.groupMembers, member.contactId = primaryId ∧
    db.HasMember member.groupId secondaryId

instance (db : Db) : DecidablePred db.Known := fun _ => inferInstanceAs (Decidable (_ ∈ _))

instance (db : Db) : DecidablePred db.Live := fun _ => inferInstanceAs (Decidable (∃ _ ∈ _, _))

instance (db : Db) : DecidableRel db.InHub := fun _ _ => inferInstanceAs (Decidable (∃ _ ∈ _, _))

instance (db : Db) : DecidablePred db.HasGroup := fun _ => inferInstanceAs (Decidable (_ ∈ _))

instance (db : Db) : DecidableRel db.Together := fun _ _ =>
  inferInstanceAs (Decidable (_ ∧ ∃ _ ∈ _, _))
variable {id : String}

theorem contact_isNone : (db.contact id).isNone ↔ ¬ db.Known id := by
  simp [Db.contact, Db.Known]

theorem contact_eq_none : db.contact id = none ↔ ¬ db.Known id := by
  rw [← contact_isNone, Option.isNone_iff_eq_none]

theorem contactOfHub_eq_none {id hubId : String} :
    db.contactOfHub id hubId = none ↔ ¬ db.InHub id hubId := by
  simp [Db.contactOfHub, Db.InHub]

theorem contactOfHub_spec {id hubId : String} {contact : Contact}
    (h : db.contactOfHub id hubId = some contact) :
    contact ∈ db.contacts ∧ contact.id = id ∧ contact.hubId = hubId :=
  ⟨List.mem_of_find?_eq_some h, by simpa using List.find?_some h⟩

theorem group_eq_none : db.group id = none ↔ ¬ db.HasGroup id := by
  simp [Db.group, Db.HasGroup]

theorem Db.Live.known (h : db.Live id) : db.Known id := by
  obtain ⟨contact, hcontact, rfl, -⟩ := h
  exact List.mem_map_of_mem hcontact

/-- What the primary keys say. -/
structure Sound (db : Db) : Prop where
  contactIds : (db.contacts.map Contact.id).Nodup
  members : db.groupMembers.Nodup

/-- A contact is not both deleted and not. -/
theorem live_iff (hdb : Sound db) {contact : Contact} (hcontact : contact ∈ db.contacts) :
    db.Live contact.id ↔ contact.deletedAt = none := by
  constructor
  · rintro ⟨other, hother, hid, hlive⟩
    exact List.inj_on_of_nodup_map hdb.contactIds hother hcontact hid ▸ hlive
  · exact fun hlive => ⟨contact, hcontact, rfl, hlive⟩

theorem relinkMembers_nodup_iff (hdb : Sound db) (primaryId secondaryId : String) :
    (relinkMembers db.groupMembers primaryId secondaryId).Nodup ↔
      ¬ db.Together primaryId secondaryId := by
  by_cases hsame : primaryId = secondaryId
  · refine iff_of_true ?_ fun h => h.1 hsame
    rw [relinkMembers, update_eq_self]
    · exact hdb.members
    · rintro member - rfl
      rw [hsame]
  · have hmoved : (relinkMembers db.groupMembers primaryId secondaryId).Nodup ↔
        ((db.groupMembers.filter fun member => member.contactId = primaryId).map
          GroupMember.groupId).Disjoint ((db.groupMembers.filter fun member =>
            member.contactId = secondaryId).map GroupMember.groupId) := by
      refine moved_nodup_iff hsame ?_ ?_ ?_ hdb.members
      · exact fun _ => rfl
      · exact fun _ => rfl
      · rintro ⟨groupId, contactId⟩ ⟨groupId', contactId'⟩ rfl rfl
        rfl
    rw [hmoved]
    constructor
    · rintro hdisjoint ⟨-, member, hmember, hprimary, hsecondary⟩
      refine hdisjoint (a := member.groupId) (List.mem_map.mpr ⟨member, ?_, rfl⟩)
        (List.mem_map.mpr ⟨_, List.mem_filter.mpr ⟨hsecondary, by simp⟩, rfl⟩)
      exact List.mem_filter.mpr ⟨hmember, by simpa using hprimary⟩
    · intro htogether groupId hfirst hsecond
      obtain ⟨member, hmember, rfl⟩ := List.mem_map.mp hfirst
      obtain ⟨other, hother, hgroup⟩ := List.mem_map.mp hsecond
      simp only [List.mem_filter, decide_eq_true_eq] at hmember hother
      refine htogether ⟨hsame, member, hmember.1, hmember.2, ?_⟩
      rw [← hgroup, ← hother.2]
      exact hother.1

/-! ## What is written -/

theorem updateContact_fst (db : Db) (id : String) (input : UpdateContactBody) :
    (updateContact db id input).1 = db.updateContact id input.values := by
  unfold updateContact
  split
  · rename_i hnone
    have hkept : update Contact.id db.contacts id input.values = db.contacts := by
      refine update_eq_self fun contact hcontact hid => ?_
      exact absurd (hid ▸ List.mem_map_of_mem hcontact) (contact_eq_none.mp hnone)
    unfold Db.updateContact
    rw [hkept]
    rfl
  · rfl

/-- The groups that the contact is a member of. -/
def Db.groupsOf (db : Db) (id : String) : List String :=
  (db.groupMembers.filter fun member => member.contactId = id).map GroupMember.groupId

/-- What `delete` leaves. -/
def deleted (db : Db) (id : String) : Db where
  contacts := db.contacts.filter fun contact => contact.id ≠ id
  contactRelationships := db.contactRelationships.filter fun r => !r.names id
  affinityGroups := dropMember db.affinityGroups (db.groupsOf id)
  groupMembers := db.groupMembers.filter fun member => member.contactId ≠ id

theorem delete_fst (db : Db) (id : String) :
    (delete db id).1 = if db.Known id then deleted db id else db := by
  unfold delete
  split
  · rename_i hnone
    rw [if_neg (contact_eq_none.mp hnone)]
    rfl
  · rename_i hfound
    have hknown : db.Known id := not_not.mp fun h => by simp [contact_eq_none.mpr h] at hfound
    rw [if_pos hknown]
    rfl

theorem createRelationship_fst (db : Db) (id a hubId : String) (input : CreateRelationshipBody) :
    (createRelationship db id a hubId input).1 =
      if a ≠ input.contactIdB ∧ db.Known a ∧ db.Known input.contactIdB ∧
          ∀ r ∈ db.contactRelationships, r.relationshipType = input.relationshipType →
            r.joins a input.contactIdB = false then
        { db with
          contactRelationships := db.contactRelationships ++
            [{ id
               hubId
               contactIdA := a
               contactIdB := input.contactIdB
               relationshipType := input.relationshipType }] }
      else db := by
  unfold createRelationship
  by_cases hself : a = input.contactIdB
  · rw [if_pos hself, if_neg fun h => h.1 hself]
  · rw [if_neg hself]
    split
    · rename_i hnone
      rw [if_neg fun h => contact_eq_none.mp hnone h.2.1]
      rfl
    · rename_i hnone
      rw [if_neg fun h => contact_eq_none.mp hnone h.2.2.1]
      rfl
    · rename_i hfound hfound'
      have hknown : db.Known a := not_not.mp fun h => by simp [contact_eq_none.mpr h] at hfound
      have hknown' : db.Known input.contactIdB :=
        not_not.mp fun h => by simp [contact_eq_none.mpr h] at hfound'
      simp only [ne_eq, hself, not_false_eq_true, hknown, hknown', true_and]
      by_cases hexists : ∀ r ∈ db.contactRelationships,
          r.relationshipType = input.relationshipType → r.joins a input.contactIdB = false
      · rw [if_pos hexists, if_neg]
        simpa using hexists
      · rw [if_neg hexists, if_pos]
        simpa using hexists

theorem deleteRelationship_fst (db : Db) (contactId relId : String) :
    (deleteRelationship db contactId relId).1 =
      if ∃ r ∈ db.contactRelationships, r.id = relId ∧ r.names contactId = true then
        { db with contactRelationships := db.contactRelationships.filter fun r => r.id ≠ relId }
      else db := by
  unfold deleteRelationship
  by_cases h : ∃ r ∈ db.contactRelationships, r.id = relId ∧ r.names contactId = true
  · rw [if_pos h, if_neg]
    simpa using h
  · rw [if_neg h, if_pos]
    · rfl
    · simpa using h

theorem memberRows_nodup_iff (hdb : Sound db)
    (hid : id ∉ db.groupMembers.map GroupMember.groupId) (members : List String) :
    (db.groupMembers ++ memberRows id members).Nodup ↔ members.Nodup := by
  have hinj : Function.Injective fun contactId => ({ groupId := id, contactId } : GroupMember) :=
    fun a b h => (GroupMember.mk.inj h).2
  have hdisjoint : db.groupMembers.Disjoint (memberRows id members) := by
    intro member hold hnew
    obtain ⟨contactId, -, rfl⟩ := List.mem_map.mp hnew
    exact hid (List.mem_map.mpr ⟨_, hold, rfl⟩)
  rw [List.nodup_append']
  refine ⟨fun h => (List.nodup_map_iff hinj).mp h.2.1, fun h => ?_⟩
  exact ⟨hdb.members, h.map hinj, hdisjoint⟩

theorem createGroup_fst (hdb : Sound db)
    (hid : id ∉ db.groupMembers.map GroupMember.groupId) (hubId : String) (members : List String) :
    (createGroup db id hubId members).1 =
      if ∀ contactId ∈ members, db.Known contactId then
        { db with
          affinityGroups := db.affinityGroups ++ [{ id, hubId, memberCount := members.length }]
          groupMembers := db.groupMembers ++ if members.Nodup then memberRows id members else [] }
      else db := by
  unfold createGroup
  split
  · rename_i contactId hmissing
    have hnone : ¬ db.Known contactId :=
      contact_isNone.mp (by simpa using List.find?_some hmissing)
    rw [if_neg fun h => hnone (h contactId (List.mem_of_find?_eq_some hmissing))]
    rfl
  · rename_i hnone
    have hknown : ∀ contactId ∈ members, db.Known contactId := fun contactId hmem =>
      not_not.mp fun h => List.find?_eq_none.mp hnone contactId hmem (contact_isNone.mpr h)
    have hnodup := memberRows_nodup_iff hdb hid members
    rw [if_pos hknown]
    by_cases hempty : members = []
    · simp [hempty, memberRows]
    · dsimp only
      rw [if_neg hempty]
      by_cases hmembers : members.Nodup
      · rw [if_neg (not_not.mpr (hnodup.mpr hmembers)), if_pos hmembers]
      · rw [if_pos fun h => hmembers (hnodup.mp h), if_neg hmembers, List.append_nil]
        rfl

theorem deleteGroup_fst (db : Db) (id : String) :
    (deleteGroup db id).1 =
      if db.HasGroup id then
        { db with
          groupMembers := db.groupMembers.filter fun member => member.groupId ≠ id
          affinityGroups := db.affinityGroups.filter fun group => group.id ≠ id }
      else db := by
  unfold deleteGroup
  split
  · rename_i hnone
    rw [if_neg (group_eq_none.mp hnone)]
    rfl
  · rename_i hgroup
    have hhas : db.HasGroup id := not_not.mp fun h => by simp [group_eq_none.mpr h] at hgroup
    rw [if_pos hhas]

theorem addMember_fst (db : Db) (groupId contactId : String) :
    (addMember db groupId contactId).1 =
      if db.HasGroup groupId ∧ db.Known contactId ∧ ¬ db.HasMember groupId contactId then
        { db with
          groupMembers := db.groupMembers ++ [GroupMember.mk groupId contactId]
          }.updateGroup groupId AffinityGroup.moreMembers
      else db := by
  unfold addMember
  split
  · rename_i hnone
    rw [if_neg fun h => group_eq_none.mp hnone h.1]
    rfl
  · rename_i hnone
    rw [if_neg fun h => contact_eq_none.mp hnone h.2.1]
    rfl
  · rename_i hgroup hcontact
    have hhas : db.HasGroup groupId := not_not.mp fun h => by simp [group_eq_none.mpr h] at hgroup
    have hknown : db.Known contactId :=
      not_not.mp fun h => by simp [contact_eq_none.mpr h] at hcontact
    dsimp only
    by_cases hmember : db.HasMember groupId contactId
    · rw [if_pos hmember, if_neg fun h => h.2.2 hmember]
    · rw [if_neg hmember, if_pos ⟨hhas, hknown, hmember⟩]

theorem removeMember_fst (db : Db) (groupId contactId : String) :
    (removeMember db groupId contactId).1 =
      if db.HasGroup groupId ∧ db.HasMember groupId contactId then
        { db with
          groupMembers :=
            db.groupMembers.filter fun other => other ≠ GroupMember.mk groupId contactId
          }.updateGroup groupId AffinityGroup.fewerMembers
      else db := by
  unfold removeMember
  split
  · rename_i hnone
    rw [if_neg fun h => group_eq_none.mp hnone h.1]
    rfl
  · rename_i hgroup
    have hhas : db.HasGroup groupId := not_not.mp fun h => by simp [group_eq_none.mpr h] at hgroup
    dsimp only
    by_cases hmember : db.HasMember groupId contactId
    · rw [if_neg (not_not.mpr hmember), if_pos ⟨hhas, hmember⟩]
    · rw [if_pos hmember, if_neg fun h => hmember h.2]
      rfl

/-- What the transaction of `mergeContacts` leaves. -/
def merged (db : Db) (hubId : String) (body : MergeContactsBody) (now : Int) : Db :=
  ({ db with
      contactRelationships := db.contactRelationships.map
        (Relationship.relink hubId body.primaryId body.secondaryId)
      groupMembers := relinkMembers db.groupMembers body.primaryId body.secondaryId }.updateContact
    body.primaryId body.values).updateContact body.secondaryId
      (Contact.mergedInto body.primaryId now)

/-- What the transaction makes of a contact. -/
def MergeContactsBody.contactAfter (body : MergeContactsBody) (now : Int) (contact : Contact) :
    Contact :=
  let updated := if contact.id = body.primaryId then body.values contact else contact
  if contact.id = body.secondaryId then updated.mergedInto body.primaryId now else updated

theorem merged_contacts (db : Db) (hubId : String) (body : MergeContactsBody) (now : Int) :
    (merged db hubId body now).contacts = db.contacts.map (body.contactAfter now) := by
  unfold merged Db.updateContact update
  rw [List.map_map]
  refine List.map_congr_left fun contact _ => ?_
  have hid : (if contact.id = body.primaryId then body.values contact else contact).id =
      contact.id := by
    split_ifs <;> rfl
  dsimp only [Function.comp, MergeContactsBody.contactAfter]
  rw [hid]

theorem contactAfter_state (body : MergeContactsBody) (now : Int) (contact : Contact) :
    (body.contactAfter now contact).id = contact.id ∧
      (body.contactAfter now contact).deletedAt =
        if contact.id = body.secondaryId then some now else contact.deletedAt := by
  unfold MergeContactsBody.contactAfter
  split_ifs <;> exact ⟨rfl, rfl⟩

/-- A merge goes through. -/
def Merges (db : Db) (hubId : String) (body : MergeContactsBody) : Prop :=
  db.InHub body.primaryId hubId ∧ db.InHub body.secondaryId hubId ∧
    ¬ db.Together body.primaryId body.secondaryId

instance (db : Db) (hubId : String) (body : MergeContactsBody) : Decidable (Merges db hubId body) :=
  inferInstanceAs (Decidable (_ ∧ _ ∧ _))

theorem mergeContacts_fst (hdb : Sound db) (hubId : String) (body : MergeContactsBody)
    (now : Int) :
    (mergeContacts db hubId body now).1 =
      if Merges db hubId body then merged db hubId body now else db := by
  have hnodup := relinkMembers_nodup_iff hdb body.primaryId body.secondaryId
  unfold mergeContacts
  split
  · rename_i hnone
    rw [if_neg fun h => contactOfHub_eq_none.mp hnone h.1]
    rfl
  · rename_i hnone
    rw [if_neg fun h => contactOfHub_eq_none.mp hnone h.2.1]
    rfl
  · rename_i primary secondary hprimary hsecondary
    obtain ⟨hmem, hid, hhub⟩ := contactOfHub_spec hprimary
    obtain ⟨hmem', hid', hhub'⟩ := contactOfHub_spec hsecondary
    rw [if_neg (not_not.mpr (hhub'.trans hhub.symm))]
    dsimp only
    by_cases htogether : db.Together body.primaryId body.secondaryId
    · rw [if_pos (fun h => hnodup.mp h htogether), if_neg fun h => h.2.2 htogether]
      rfl
    · rw [if_neg (not_not.mpr (hnodup.mpr htogether)),
        if_pos ⟨⟨primary, hmem, hid, hhub⟩, ⟨secondary, hmem', hid', hhub'⟩, htogether⟩]
      rfl

/-! ## The primary keys -/

theorem map_updateContact {γ : Type} (f : Contact → γ) (db : Db) (id : String)
    {set : Contact → Contact} (hset : ∀ contact, f (set contact) = f contact) :
    (db.updateContact id set).contacts.map f = db.contacts.map f :=
  map_update f db.contacts id hset

theorem map_setTags {γ : Type} (f : Contact → γ)
    (hf : ∀ (contact : Contact) tagHashes, f { contact with tagHashes } = f contact)
    (hubId : String) (indexes : List (String × List String)) (contacts : List Contact) :
    (setTags contacts hubId indexes).map f = contacts.map f := by
  unfold setTags
  induction indexes generalizing contacts with
  | nil => rfl
  | cons index indexes ih =>
    refine (ih _).trans (map_update f contacts index.1 fun contact => ?_)
    split_ifs
    · exact hf contact index.2
    · rfl

/-- The contacts that the bulk action deletes. -/
def bulkDeleted (contacts : List Contact) (ids : List String) (now : Int) : List Contact :=
  contacts.map fun contact =>
    if ids.contains contact.id then { contact with deletedAt := some now } else contact

theorem map_bulkDeleted {γ : Type} (f : Contact → γ)
    (hf : ∀ (contact : Contact) deletedAt, f { contact with deletedAt } = f contact)
    (contacts : List Contact) (ids : List String) (now : Int) :
    (bulkDeleted contacts ids now).map f = contacts.map f := by
  unfold bulkDeleted
  rw [List.map_map]
  refine List.map_congr_left fun contact _ => ?_
  dsimp only [Function.comp]
  split_ifs
  · exact hf contact _
  · rfl

/-- The rows that the bulk action adds to the group. -/
def addedRows (db : Db) (ids : List String) (groupId : String) : List GroupMember :=
  (memberRows groupId ids).filter fun member => member ∉ db.groupMembers

theorem memberRows_nodup (groupId : String) {ids : List String} (h : ids.Nodup) :
    (memberRows groupId ids).Nodup :=
  h.map fun _ _ heq => (GroupMember.mk.inj heq).2

theorem validIds_nodup (hdb : Sound db) (hubId : String) (contactIds : List String) :
    (db.validIds hubId contactIds).Nodup :=
  hdb.contactIds.sublist (List.filter_sublist.map Contact.id)

theorem bulkAction_sound (hdb : Sound db) (hubId : String) (contactIds : List String)
    (action : BulkAction) (now : Int) :
    Sound (bulkAction db hubId contactIds action now).1 := by
  cases action with
  | delete =>
    refine ⟨?_, hdb.members⟩
    exact (map_bulkDeleted Contact.id (fun _ _ => rfl) db.contacts _ now).symm ▸ hdb.contactIds
  | addTags indexes | removeTags indexes =>
    refine ⟨?_, hdb.members⟩
    exact (map_setTags Contact.id (fun _ _ => rfl) hubId indexes db.contacts).symm ▸ hdb.contactIds
  | addToGroup groupId =>
    refine ⟨hdb.contactIds, hdb.members.append ?_ ?_⟩
    · exact (memberRows_nodup groupId (validIds_nodup hdb hubId contactIds)).filter _
    · intro member hold hnew
      simpa [hold] using (List.mem_filter.mp hnew).2
  | removeFromGroup groupId => exact ⟨hdb.contactIds, hdb.members.filter _⟩
  | setRiskLevel => exact hdb

/-- Nothing has or names the ids that are drawn. -/
structure Unused (db : Db) (drawn : List String) : Prop where
  nodup : drawn.Nodup
  contacts : drawn.Disjoint (db.contacts.map Contact.id)
  groups : drawn.Disjoint (db.affinityGroups.map AffinityGroup.id)
  members : drawn.Disjoint (db.groupMembers.map GroupMember.groupId)
  memberContacts : drawn.Disjoint (db.groupMembers.map GroupMember.contactId)

theorem unused_of_fresh {drawn : List String} (h : db.Fresh drawn) : Unused db drawn := by
  obtain ⟨hnodup, hids⟩ := h
  simp only [Db.ids, List.mem_append, not_or] at hids
  exact ⟨hnodup, fun id hid => (hids id hid).1.1.1.1.1.1, fun id hid => (hids id hid).1.1.2,
    fun id hid => (hids id hid).1.2, fun id hid => (hids id hid).2⟩

theorem hasGroup_updateGroup (db : Db) (id : String) {set : AffinityGroup → AffinityGroup}
    (hset : ∀ group, (set group).id = group.id) (other : String) :
    (db.updateGroup id set).HasGroup other ↔ db.HasGroup other := by
  unfold Db.HasGroup Db.updateGroup
  rw [map_update AffinityGroup.id db.affinityGroups id hset]

/-- A member of a group that is new was not there before. -/
theorem hasGroup_insert {group : AffinityGroup}
    (hgroup : group.id ∉ db.groupMembers.map GroupMember.groupId) {member : GroupMember}
    (hmember : member ∈ db.groupMembers)
    (h : member.groupId ∈ (db.affinityGroups ++ [group]).map AffinityGroup.id) :
    db.HasGroup member.groupId := by
  rw [List.map_append, List.mem_append] at h
  refine h.resolve_right fun heq => hgroup ?_
  have hid : member.groupId = group.id := List.mem_singleton.mp heq
  exact hid ▸ List.mem_map_of_mem hmember

theorem merged_sound (hdb : Sound db) {hubId : String} {body : MergeContactsBody}
    (hmerges : Merges db hubId body) (now : Int) : Sound (merged db hubId body now) := by
  refine ⟨?_, (relinkMembers_nodup_iff hdb _ _).mpr hmerges.2.2⟩
  unfold merged
  rw [map_updateContact Contact.id, map_updateContact Contact.id]
  · exact hdb.contactIds
  · exact fun _ => rfl
  · exact fun _ => rfl

theorem sound_contacts (hdb : Sound db) {rows : List Contact}
    (hdisjoint : (rows.map Contact.id).Disjoint (db.contacts.map Contact.id))
    (hrows : (rows.map Contact.id).Nodup) : Sound { db with contacts := db.contacts ++ rows } := by
  refine ⟨?_, hdb.members⟩
  rw [List.map_append]
  exact hdb.contactIds.append hrows fun id hold hnew => hdisjoint hnew hold

/-- The contacts of the batch. -/
def batchRows (hubId : String) (batch : List (String × BulkContact)) : List Contact :=
  batch.map fun entry => entry.2.contact hubId entry.1

@[simp] theorem map_batchRows (hubId : String) (batch : List (String × BulkContact)) :
    (batchRows hubId batch).map Contact.id = batch.map Prod.fst := by
  unfold batchRows
  rw [List.map_map]
  rfl

theorem call_sound (hdb : Sound db) {op : Op} (hdrawn : Unused db op.drawn) :
    Sound (call db op) := by
  cases op with
  | create id input => exact sound_contacts hdb hdrawn.contacts (List.nodup_singleton id)
  | bulkCreate hubId batch =>
    unfold call bulkCreate
    dsimp only
    split_ifs
    · exact hdb
    · have hids := map_batchRows hubId batch
      exact sound_contacts hdb (hids ▸ hdrawn.contacts) (hids ▸ hdrawn.nodup)
  | update id input =>
    unfold call
    dsimp only
    rw [updateContact_fst]
    refine ⟨?_, hdb.members⟩
    rw [map_updateContact Contact.id]
    · exact hdb.contactIds
    · exact fun _ => rfl
  | delete id =>
    unfold call
    dsimp only
    rw [delete_fst]
    split_ifs
    · exact ⟨hdb.contactIds.sublist (List.filter_sublist.map Contact.id), hdb.members.filter _⟩
    · exact hdb
  | createRelationship id a hubId input =>
    unfold call
    dsimp only
    rw [createRelationship_fst]
    split_ifs
    · exact ⟨hdb.contactIds, hdb.members⟩
    · exact hdb
  | deleteRelationship contactId relId =>
    unfold call
    dsimp only
    rw [deleteRelationship_fst]
    split_ifs
    · exact ⟨hdb.contactIds, hdb.members⟩
    · exact hdb
  | createGroup id hubId members =>
    have hid := hdrawn.members List.mem_cons_self
    unfold call
    dsimp only
    rw [createGroup_fst hdb hid]
    split_ifs with hknown hnodup
    · exact ⟨hdb.contactIds, (memberRows_nodup_iff hdb hid members).mpr hnodup⟩
    · exact ⟨hdb.contactIds, (List.append_nil _).symm ▸ hdb.members⟩
    · exact hdb
  | deleteGroup id =>
    unfold call
    dsimp only
    rw [deleteGroup_fst]
    split_ifs
    · exact ⟨hdb.contactIds, hdb.members.filter _⟩
    · exact hdb
  | addMember groupId contactId =>
    unfold call
    dsimp only
    rw [addMember_fst]
    split_ifs with hadds
    · refine ⟨hdb.contactIds, hdb.members.append (List.nodup_singleton _) ?_⟩
      exact List.disjoint_singleton.mpr hadds.2.2
    · exact hdb
  | removeMember groupId contactId =>
    unfold call
    dsimp only
    rw [removeMember_fst]
    split_ifs with hremoves
    · exact ⟨hdb.contactIds, hdb.members.filter _⟩
    · exact hdb
  | mergeContacts hubId body now =>
    unfold call
    dsimp only
    rw [mergeContacts_fst hdb]
    split_ifs with hmerges
    · exact merged_sound hdb hmerges now
    · exact hdb
  | bulkAction hubId contactIds action now =>
    exact bulkAction_sound hdb hubId contactIds action now

theorem step_spec {op : Op} (h : step db op = some db') :
    Unused db op.drawn ∧ db' = call db op := by
  unfold step at h
  split_ifs at h with hfresh
  exact ⟨unused_of_fresh hfresh, (Option.some.inj h).symm⟩

theorem empty_sound : Sound {} := ⟨.nil, .nil⟩

end Llamenos.Worker.Contacts

import Llamenos.Lib.Counters
import Llamenos.Lib.Runs

/-!
# The contact directory

`ContactsService` of `apps/worker/services/contacts.ts` over the tables of
`apps/worker/db/schema/contacts.ts`: the contacts with what they are looked up by, the
relationships between them, the affinity groups and their members.

A contact is deleted in two ways: `delete` takes its row away with all that names it, a merge and
the bulk action leave the row and set `deletedAt`. The tables have no foreign keys. An operation
runs to its end before the next one begins, and no statement fails but by a unique index. Encrypted
columns, envelopes, times but for `deletedAt`, and the counts of notes and of interactions are left
out.
-/

namespace Llamenos.Worker.Contacts

open Llamenos.Lib.Counters

/-! ## The tables -/

/-- A row of `contacts`. -/
structure Contact where
  id : String
  hubId : String
  identifierHashes : List String := []
  nameHash : Option String := none
  trigramTokens : List String := []
  contactTypeHash : Option String := none
  tagHashes : List String := []
  mergedIntoId : Option String := none
  deletedAt : Option Int := none
  deriving DecidableEq

/-- A row of `contact_relationships`. -/
structure Relationship where
  id : String
  hubId : String
  contactIdA : String
  contactIdB : String
  relationshipType : String

/-- A row of `affinity_groups`. -/
structure AffinityGroup where
  id : String
  hubId : String
  memberCount : Nat := 0

/-- A row of `group_members`, by its primary key. -/
structure GroupMember where
  groupId : String
  contactId : String
  deriving DecidableEq

structure Db where
  contacts : List Contact := []
  contactRelationships : List Relationship := []
  affinityGroups : List AffinityGroup := []
  groupMembers : List GroupMember := []

/-- A `ServiceError`, or what the database throws where a unique index is violated. -/
inductive ContactsError where
  | service (status : Nat) (message : String)
  | unique (index : String)

/-- What an operation makes of the database, and what it returns or throws. -/
abbrev Result (α : Type) := Db × Except ContactsError α

/-- `throw new ServiceError(404, message)`. -/
def notFound {α : Type} (db : Db) (message : String) : Result α :=
  (db, .error (.service 404 message))

/-- The primary key of `group_members` is violated. -/
def memberTaken {α : Type} (db : Db) : Result α :=
  (db, .error (.unique "group_members_group_id_contact_id_pk"))

def Db.contact (db : Db) (id : String) : Option Contact :=
  db.contacts.find? fun contact => contact.id = id

def Db.contactOfHub (db : Db) (id hubId : String) : Option Contact :=
  db.contacts.find? fun contact => contact.id = id && contact.hubId = hubId

def Db.group (db : Db) (id : String) : Option AffinityGroup :=
  db.affinityGroups.find? fun group => group.id = id

/-- The contact is a member of the group. -/
def Db.HasMember (db : Db) (groupId contactId : String) : Prop :=
  GroupMember.mk groupId contactId ∈ db.groupMembers

instance (db : Db) : DecidableRel db.HasMember := fun _ _ => inferInstanceAs (Decidable (_ ∈ _))

/-- `UPDATE contacts SET … WHERE id = …`. -/
def Db.updateContact (db : Db) (id : String) (set : Contact → Contact) : Db :=
  { db with contacts := update Contact.id db.contacts id set }

/-- `UPDATE affinity_groups SET … WHERE id = …`. -/
def Db.updateGroup (db : Db) (id : String) (set : AffinityGroup → AffinityGroup) : Db :=
  { db with affinityGroups := update AffinityGroup.id db.affinityGroups id set }

/-- The value, if it is there and not empty. -/
def given (value : Option String) : Option String := value.filter fun value => value ≠ ""

/-! ## Contacts -/

structure CreateContactBody where
  hubId : String
  identifierHashes : List String
  nameHash : Option String := none
  trigramTokens : Option (List String) := none
  contactTypeHash : Option String := none
  tagHashes : Option (List String) := none

/-- The row that `create` inserts. -/
def CreateContactBody.contact (input : CreateContactBody) (id : String) : Contact where
  id := id
  hubId := input.hubId
  identifierHashes := input.identifierHashes
  nameHash := input.nameHash
  trigramTokens := input.trigramTokens.getD []
  contactTypeHash := input.contactTypeHash
  tagHashes := input.tagHashes.getD []

def create (db : Db) (id : String) (input : CreateContactBody) : Result Contact :=
  ({ db with contacts := db.contacts ++ [input.contact id] }, .ok (input.contact id))

/-- One of the contacts of `BulkCreateContactBody`. -/
structure BulkContact where
  identifierHashes : Option (List String) := none
  tagHashes : Option (List String) := none
  contactTypeHash : Option String := none
  trigramTokens : Option (List String) := none
  nameHash : Option String := none

/-- The row that `bulkCreate` inserts for it. -/
def BulkContact.contact (input : BulkContact) (hubId id : String) : Contact where
  id := id
  hubId := hubId
  identifierHashes := input.identifierHashes.getD []
  nameHash := input.nameHash
  trigramTokens := input.trigramTokens.getD []
  contactTypeHash := input.contactTypeHash
  tagHashes := input.tagHashes.getD []

/-- `bulkCreate`; each contact of the batch comes with the id it draws. -/
def bulkCreate (db : Db) (hubId : String) (batch : List (String × BulkContact)) :
    Result (List String) :=
  if batch.length > 100 then (db, .error (.service 400 "batch exceeds maximum of 100"))
  else
    let rows := batch.map fun entry => entry.2.contact hubId entry.1
    ({ db with contacts := db.contacts ++ rows }, .ok (rows.map Contact.id))

structure UpdateContactBody where
  identifierHashes : Option (List String) := none
  nameHash : Option String := none
  trigramTokens : Option (List String) := none
  contactTypeHash : Option String := none
  tagHashes : Option (List String) := none

/-- `values` of `update`. -/
def UpdateContactBody.values (input : UpdateContactBody) (contact : Contact) : Contact :=
  { contact with
    identifierHashes := input.identifierHashes.getD contact.identifierHashes
    nameHash := input.nameHash.or contact.nameHash
    trigramTokens := input.trigramTokens.getD contact.trigramTokens
    contactTypeHash := input.contactTypeHash.or contact.contactTypeHash
    tagHashes := input.tagHashes.getD contact.tagHashes }

def updateContact (db : Db) (id : String) (input : UpdateContactBody) : Result (Option Contact) :=
  match db.contact id with
  | none => notFound db "Contact not found"
  | some _ =>
    let updated := db.updateContact id input.values
    (updated, .ok (updated.contact id))

/-- `memberCount: GREATEST(0, memberCount - 1)`. -/
def AffinityGroup.fewerMembers (group : AffinityGroup) : AffinityGroup :=
  { group with memberCount := group.memberCount - 1 }

def AffinityGroup.moreMembers (group : AffinityGroup) : AffinityGroup :=
  { group with memberCount := group.memberCount + 1 }

/-- One group after the other loses a member. -/
def dropMember (groups : List AffinityGroup) (groupIds : List String) : List AffinityGroup :=
  groupIds.foldl
    (fun groups groupId => update AffinityGroup.id groups groupId AffinityGroup.fewerMembers) groups

/-- The relationship names the contact on either side. -/
def Relationship.names (relationship : Relationship) (id : String) : Bool :=
  relationship.contactIdA = id || relationship.contactIdB = id

def delete (db : Db) (id : String) : Result Unit :=
  match db.contact id with
  | none => notFound db "Contact not found"
  | some _ =>
    let groupIds :=
      (db.groupMembers.filter fun member => member.contactId = id).map GroupMember.groupId
    ({ contacts := db.contacts.filter fun contact => contact.id ≠ id
       contactRelationships := db.contactRelationships.filter fun relationship =>
        !relationship.names id
       affinityGroups := dropMember db.affinityGroups groupIds
       groupMembers := db.groupMembers.filter fun member => member.contactId ≠ id },
      .ok ())

/-! ## What is read of contacts

A query that asks for no order returns the rows in any; one that asks for it, in that one. `rows`
are those of the table in the order in which the query finds them. -/

def get (db : Db) (id : String) : Except ContactsError Contact :=
  match db.contacts.find? fun contact => contact.id = id && contact.deletedAt.isNone with
  | none => .error (.service 404 "Contact not found")
  | some contact => .ok contact

structure ListContactsInput where
  hubId : String
  page : Option Nat := none
  limit : Option Nat := none
  contactTypeHash : Option String := none

structure ContactList where
  contacts : List Contact
  total : Nat
  page : Nat
  limit : Nat
  hasMore : Bool

def list (rows : List Contact) (input : ListContactsInput) : ContactList :=
  let page := input.page.getD 1
  let limit := min (input.limit.getD 20) 100
  let offset := (page - 1) * limit
  let found := rows.filter fun contact =>
    contact.hubId = input.hubId && contact.deletedAt.isNone &&
      (given input.contactTypeHash).all fun type => contact.contactTypeHash = some type
  { contacts := (found.drop offset).take limit
    total := found.length
    page
    limit
    hasMore := offset + limit < found.length }

def lookupByIdentifierHash (rows : List Contact) (hubId identifierHash : String) :
    Option Contact :=
  rows.find? fun contact =>
    contact.hubId = hubId && contact.identifierHashes.contains identifierHash

def lookupByNameHash (rows : List Contact) (hubId nameHash : String) : Option Contact :=
  rows.find? fun contact => contact.hubId = hubId && contact.nameHash = some nameHash

def searchByTrigramTokens (rows : List Contact) (hubId : String) (tokens : List String)
    (limit : Nat) : List Contact :=
  if tokens = [] then []
  else
    (rows.filter fun contact =>
      contact.hubId = hubId && contact.trigramTokens.any fun token => tokens.contains token).take
      limit

/-! ## Relationships -/

structure CreateRelationshipBody where
  contactIdB : String
  relationshipType : String

/-- The relationship joins the two contacts, in either direction. -/
def Relationship.joins (relationship : Relationship) (a b : String) : Bool :=
  (relationship.contactIdA = a && relationship.contactIdB = b) ||
    (relationship.contactIdA = b && relationship.contactIdB = a)

def createRelationship (db : Db) (id contactIdA hubId : String) (input : CreateRelationshipBody) :
    Result Relationship :=
  if contactIdA = input.contactIdB then
    (db, .error (.service 400 "Cannot create a relationship with the same contact"))
  else
    match db.contact contactIdA, db.contact input.contactIdB with
    | none, _ => notFound db "Contact A not found"
    | some _, none => notFound db "Contact B not found"
    | some _, some _ =>
      if db.contactRelationships.any fun relationship =>
          relationship.relationshipType = input.relationshipType &&
            relationship.joins contactIdA input.contactIdB then
        (db, .error (.service 409 "Relationship already exists"))
      else
        let relationship : Relationship :=
          { id
            hubId
            contactIdA
            contactIdB := input.contactIdB
            relationshipType := input.relationshipType }
        ({ db with contactRelationships := db.contactRelationships ++ [relationship] },
          .ok relationship)

def deleteRelationship (db : Db) (contactId relId : String) : Result Unit :=
  if ¬ db.contactRelationships.any fun relationship =>
      relationship.id = relId && relationship.names contactId then
    notFound db "Relationship not found"
  else
    ({ db with
        contactRelationships := db.contactRelationships.filter fun relationship =>
          relationship.id ≠ relId },
      .ok ())

def listRelationships (db : Db) (contactId : String) : List Relationship :=
  db.contactRelationships.filter fun relationship => relationship.names contactId

/-! ## Affinity groups -/

/-- The rows that `createGroup` inserts for the members. -/
def memberRows (groupId : String) (members : List String) : List GroupMember :=
  members.map fun contactId => { groupId, contactId }

/-- `createGroup`; the group stays where its members cannot be inserted. -/
def createGroup (db : Db) (id hubId : String) (members : List String) : Result AffinityGroup :=
  match members.find? fun contactId => (db.contact contactId).isNone with
  | some contactId => notFound db ("Contact " ++ contactId ++ " not found")
  | none =>
    let group : AffinityGroup := { id, hubId, memberCount := members.length }
    let inserted := { db with affinityGroups := db.affinityGroups ++ [group] }
    let groupMembers := db.groupMembers ++ memberRows id members
    if members = [] then (inserted, .ok group)
    else if ¬ groupMembers.Nodup then memberTaken inserted
    else ({ inserted with groupMembers }, .ok group)

def deleteGroup (db : Db) (id : String) : Result Unit :=
  match db.group id with
  | none => notFound db "Group not found"
  | some _ =>
    ({ db with
        groupMembers := db.groupMembers.filter fun member => member.groupId ≠ id
        affinityGroups := db.affinityGroups.filter fun group => group.id ≠ id },
      .ok ())

def addMember (db : Db) (groupId contactId : String) : Result (Option Nat) :=
  match db.group groupId, db.contact contactId with
  | none, _ => notFound db "Group not found"
  | some _, none => notFound db "Contact not found"
  | some _, some _ =>
    let member : GroupMember := { groupId, contactId }
    if db.HasMember groupId contactId then
      (db, .error (.service 409 "Contact is already a member of this group"))
    else
      let added := { db with groupMembers := db.groupMembers ++ [member] }.updateGroup groupId
        AffinityGroup.moreMembers
      (added, .ok ((added.group groupId).map AffinityGroup.memberCount))

def removeMember (db : Db) (groupId contactId : String) : Result (Option Nat) :=
  match db.group groupId with
  | none => notFound db "Group not found"
  | some _ =>
    let member : GroupMember := { groupId, contactId }
    if ¬ db.HasMember groupId contactId then notFound db "Member not found in group"
    else
      let removed := { db with
        groupMembers := db.groupMembers.filter fun other => other ≠ member }.updateGroup groupId
          AffinityGroup.fewerMembers
      (removed, .ok ((removed.group groupId).map AffinityGroup.memberCount))

def listMembers (db : Db) (groupId : String) : Except ContactsError (List GroupMember) :=
  match db.group groupId with
  | none => .error (.service 404 "Group not found")
  | some _ => .ok (db.groupMembers.filter fun member => member.groupId = groupId)

/-! ## Merges and bulk actions -/

structure MergeContactsBody where
  primaryId : String
  secondaryId : String
  identifierHashes : Option (List String) := none
  tagHashes : Option (List String) := none
  contactTypeHash : Option String := none
  mergedTrigramTokens : Option (List String) := none
  mergedNameHash : Option String := none

/-- What the primary contact is set to. -/
def MergeContactsBody.values (body : MergeContactsBody) (contact : Contact) : Contact :=
  { contact with
    identifierHashes := body.identifierHashes.getD []
    tagHashes := body.tagHashes.getD []
    contactTypeHash := body.contactTypeHash
    trigramTokens := body.mergedTrigramTokens.getD []
    nameHash := body.mergedNameHash }

/-- What the secondary contact is set to. -/
def Contact.mergedInto (primaryId : String) (mergedAt : Int) (contact : Contact) : Contact :=
  { contact with
    mergedIntoId := some primaryId
    deletedAt := some mergedAt
    identifierHashes := []
    tagHashes := []
    trigramTokens := []
    nameHash := none }

/-- One side of a relationship, after the merge. -/
def relinked (primaryId secondaryId contactId : String) : String :=
  if contactId = secondaryId then primaryId else contactId

/-- `UPDATE contact_relationships SET contact_id_a = … WHERE contact_id_a = … AND hub_id = …`, and
the same of the other side. -/
def Relationship.relink (hubId primaryId secondaryId : String) (relationship : Relationship) :
    Relationship :=
  if relationship.hubId = hubId then
    { relationship with
      contactIdA := relinked primaryId secondaryId relationship.contactIdA
      contactIdB := relinked primaryId secondaryId relationship.contactIdB }
  else relationship

/-- `UPDATE group_members SET contact_id = … WHERE contact_id = …`. -/
def relinkMembers (members : List GroupMember) (primaryId secondaryId : String) :
    List GroupMember :=
  update GroupMember.contactId members secondaryId fun member =>
    { member with contactId := primaryId }

def mergeContacts (db : Db) (hubId : String) (body : MergeContactsBody) (now : Int) :
    Result (String × String) :=
  match db.contactOfHub body.primaryId hubId, db.contactOfHub body.secondaryId hubId with
  | none, _ => notFound db "primary contact not found"
  | some _, none => notFound db "secondary contact not found"
  | some primary, some secondary =>
    if secondary.hubId ≠ primary.hubId then
      (db, .error (.service 400 "cross-hub merge not permitted"))
    else
      let groupMembers := relinkMembers db.groupMembers body.primaryId body.secondaryId
      if ¬ groupMembers.Nodup then memberTaken db
      else
        ((({ db with
            contactRelationships := db.contactRelationships.map
              (Relationship.relink hubId body.primaryId body.secondaryId)
            groupMembers }.updateContact body.primaryId body.values).updateContact body.secondaryId
              (Contact.mergedInto body.primaryId now)),
          .ok (body.primaryId, body.secondaryId))

/-- The action of `BulkContactAction`, with the payload that it uses. -/
inductive BulkAction where
  | delete
  | addTags (updatedBlindIndexes : List (String × List String))
  | removeTags (updatedBlindIndexes : List (String × List String))
  | addToGroup (groupId : String)
  | removeFromGroup (groupId : String)
  | setRiskLevel

/-- The contacts of the hub that are named, and not deleted. -/
def Db.validIds (db : Db) (hubId : String) (contactIds : List String) : List String :=
  (db.contacts.filter fun contact =>
    contactIds.contains contact.id && contact.hubId = hubId && contact.deletedAt.isNone).map
    Contact.id

/-- `UPDATE contacts SET tag_hashes = … WHERE id = … AND hub_id = …`, one after the other. -/
def setTags (contacts : List Contact) (hubId : String) (indexes : List (String × List String)) :
    List Contact :=
  indexes.foldl
    (fun contacts index => update Contact.id contacts index.1 fun contact =>
      if contact.hubId = hubId then { contact with tagHashes := index.2 } else contact)
    contacts

/-- `bulkAction`; it returns how many contacts are affected. -/
def bulkAction (db : Db) (hubId : String) (contactIds : List String) (action : BulkAction)
    (now : Int) : Result Nat :=
  let validIds := db.validIds hubId contactIds
  let after := match action with
    | .delete =>
      { db with
        contacts := db.contacts.map fun contact =>
          if validIds.contains contact.id then { contact with deletedAt := some now }
          else contact }
    | .addTags indexes | .removeTags indexes =>
      { db with contacts := setTags db.contacts hubId indexes }
    | .addToGroup groupId =>
      let rows := validIds.map fun contactId => ({ groupId, contactId } : GroupMember)
      { db with
        groupMembers := db.groupMembers ++ rows.filter fun member => member ∉ db.groupMembers }
    | .removeFromGroup groupId =>
      { db with
        groupMembers := db.groupMembers.filter fun member =>
          ¬ (validIds.contains member.contactId ∧ member.groupId = groupId) }
    | .setRiskLevel => db
  (after, .ok validIds.length)

/-! ## Runs -/

/-- An operation, with the ids it draws. -/
inductive Op where
  | create (id : String) (input : CreateContactBody)
  | bulkCreate (hubId : String) (batch : List (String × BulkContact))
  | update (id : String) (input : UpdateContactBody)
  | delete (id : String)
  | createRelationship (id contactIdA hubId : String) (input : CreateRelationshipBody)
  | deleteRelationship (contactId relId : String)
  | createGroup (id hubId : String) (members : List String)
  | deleteGroup (id : String)
  | addMember (groupId contactId : String)
  | removeMember (groupId contactId : String)
  | mergeContacts (hubId : String) (body : MergeContactsBody) (now : Int)
  | bulkAction (hubId : String) (contactIds : List String) (action : BulkAction) (now : Int)

/-- The ids that the operation draws. -/
def Op.drawn : Op → List String
  | .create id _ | .createRelationship id _ _ _ | .createGroup id _ _ => [id]
  | .bulkCreate _ batch => batch.map Prod.fst
  | _ => []

/-- The ids of the rows, and all that the rows name a contact or a group by. -/
def Db.ids (db : Db) : List String :=
  db.contacts.map Contact.id ++ db.contactRelationships.map Relationship.id ++
    db.contactRelationships.map Relationship.contactIdA ++
    db.contactRelationships.map Relationship.contactIdB ++
    db.affinityGroups.map AffinityGroup.id ++ db.groupMembers.map GroupMember.groupId ++
    db.groupMembers.map GroupMember.contactId

def call (db : Db) : Op → Db
  | .create id input => (create db id input).1
  | .bulkCreate hubId batch => (bulkCreate db hubId batch).1
  | .update id input => (updateContact db id input).1
  | .delete id => (delete db id).1
  | .createRelationship id contactIdA hubId input =>
    (createRelationship db id contactIdA hubId input).1
  | .deleteRelationship contactId relId => (deleteRelationship db contactId relId).1
  | .createGroup id hubId members => (createGroup db id hubId members).1
  | .deleteGroup id => (deleteGroup db id).1
  | .addMember groupId contactId => (addMember db groupId contactId).1
  | .removeMember groupId contactId => (removeMember db groupId contactId).1
  | .mergeContacts hubId body now => (mergeContacts db hubId body now).1
  | .bulkAction hubId contactIds action now => (bulkAction db hubId contactIds action now).1

/-- `crypto.randomUUID()` gives ids that nothing has or names, and never one twice. -/
def Db.Fresh (db : Db) (drawn : List String) : Prop :=
  drawn.Nodup ∧ ∀ id ∈ drawn, id ∉ db.ids

instance (db : Db) : DecidablePred db.Fresh := fun _ => inferInstanceAs (Decidable (_ ∧ _))

/-- An operation happens if the ids it draws are fresh. -/
def step (db : Db) (op : Op) : Option Db :=
  if db.Fresh op.drawn then some (call db op) else none

end Llamenos.Worker.Contacts

import Llamenos.Worker.Contacts.Rows

/-!
# Contacts that are deleted

`get` and `list` return no contact that is deleted. The lookups and the search do not ask for it,
nor do the lists of relationships and of members: these return none only if a deleted contact has
nothing left to be found by, and nothing names it. A merge leaves the secondary one so, but for the
relationships of other hubs; the bulk action leaves all. `update`, `createRelationship`,
`createGroup`, `addMember` and a merge into it take a deleted contact as any other.

Results:
* `hides_iff`: **no deleted contact is shown exactly if each has nothing to be found by, and nothing
  names it**.
* `call_hidden_iff`: an operation keeps it so exactly if it meets `Discreet`.
* `hides_iff_along`: **in a run, no deleted contact is shown in any state exactly if all its
  operations do**.
* `deleted_found`: a contact that is deleted, and found.
-/

namespace Llamenos.Worker.Contacts

open Llamenos.Lib Llamenos.Lib.Counters

variable {db : Db}

/-! ## What is shown -/

/-- A read returns the contact of that id, or a row that names it. -/
inductive Shown (db : Db) : String → Prop where
  | get {id : String} {contact : Contact} (h : get db id = .ok contact) : Shown db contact.id
  | list {rows : List Contact} (hrows : rows.Perm db.contacts) {input : ListContactsInput}
      {contact : Contact} (h : contact ∈ (list rows input).contacts) : Shown db contact.id
  | identifierHash {rows : List Contact} (hrows : rows.Perm db.contacts)
      (hubId identifierHash : String) {contact : Contact}
      (h : lookupByIdentifierHash rows hubId identifierHash = some contact) : Shown db contact.id
  | nameHash {rows : List Contact} (hrows : rows.Perm db.contacts) (hubId nameHash : String)
      {contact : Contact} (h : lookupByNameHash rows hubId nameHash = some contact) :
      Shown db contact.id
  | trigramTokens {rows : List Contact} (hrows : rows.Perm db.contacts) (hubId : String)
      (tokens : List String) (limit : Nat) {contact : Contact}
      (h : contact ∈ searchByTrigramTokens rows hubId tokens limit) : Shown db contact.id
  | relationshipA {contactId : String} {relationship : Relationship}
      (h : relationship ∈ listRelationships db contactId) : Shown db relationship.contactIdA
  | relationshipB {contactId : String} {relationship : Relationship}
      (h : relationship ∈ listRelationships db contactId) : Shown db relationship.contactIdB
  | member {groupId : String} {members : List GroupMember}
      (h : listMembers db groupId = .ok members) {member : GroupMember}
      (hmember : member ∈ members) :
      Shown db member.contactId

/-- All that is shown is there, and not deleted. -/
def Hides (db : Db) : Prop := ∀ id, Shown db id → db.Live id

/-- Nothing is left to find the contact by. -/
def Contact.Unfindable (contact : Contact) : Prop :=
  contact.identifierHashes = [] ∧ contact.nameHash = none ∧ contact.trigramTokens = []

/-- A relationship names the contact, or it is a member of a group that there is. -/
def Db.Named (db : Db) (id : String) : Prop :=
  (∃ r ∈ db.contactRelationships, r.names id = true) ∨
    ∃ member ∈ db.groupMembers, member.contactId = id ∧ db.HasGroup member.groupId

/-- What the reads need, to hide the deleted contacts. -/
structure Hidden (db : Db) : Prop where
  contacts : ∀ contact ∈ db.contacts, contact.deletedAt ≠ none → contact.Unfindable
  named : ∀ id, db.Named id → db.Live id

def UpdateContactBody.Blank (input : UpdateContactBody) : Prop :=
  input.identifierHashes.getD [] = [] ∧ input.nameHash = none ∧ input.trigramTokens.getD [] = []

def MergeContactsBody.Blank (body : MergeContactsBody) : Prop :=
  body.identifierHashes.getD [] = [] ∧ body.mergedNameHash = none ∧
    body.mergedTrigramTokens.getD [] = []

/-- What an operation must be, to keep the deleted contacts hidden: it gives none of them anything
to be found by, names none of them, and deletes none that is named or can be found. -/
def Discreet (db : Db) : Op → Prop
  | .update id input =>
    ∀ contact ∈ db.contacts, contact.id = id → contact.deletedAt ≠ none → input.Blank
  | .createRelationship _ a _ input =>
    a ≠ input.contactIdB → db.Known a → db.Known input.contactIdB →
      db.Live a ∧ db.Live input.contactIdB
  | .createGroup _ _ members =>
    members.Nodup → (∀ id ∈ members, db.Known id) → ∀ id ∈ members, db.Live id
  | .addMember groupId contactId => db.HasGroup groupId → db.Known contactId → db.Live contactId
  | .mergeContacts hubId body _ =>
    Merges db hubId body →
      (body.primaryId ≠ body.secondaryId → db.Live body.primaryId ∨ body.Blank) ∧
      (∀ r ∈ db.contactRelationships, r.names body.secondaryId = true → r.hubId = hubId) ∧
      (db.Named body.secondaryId → body.primaryId ≠ body.secondaryId ∧ db.Live body.primaryId)
  | .bulkAction hubId contactIds .delete _ =>
    ∀ contact ∈ db.contacts, contact.id ∈ db.validIds hubId contactIds →
      contact.Unfindable ∧ ¬ db.Named contact.id
  | _ => True

/-! ## The reads -/
variable {id : String}

theorem names_iff {r : Relationship} :
    r.names id = true ↔ r.contactIdA = id ∨ r.contactIdB = id := by
  simp [Relationship.names]

theorem listMembers_eq_ok {groupId : String} {members : List GroupMember} :
    listMembers db groupId = .ok members ↔
      db.HasGroup groupId ∧ members = db.groupMembers.filter fun m => m.groupId = groupId := by
  unfold listMembers
  split
  · rename_i hnone
    simp [group_eq_none.mp hnone]
  · rename_i hgroup
    have hhas : db.HasGroup groupId := not_not.mp fun h => by simp [group_eq_none.mpr h] at hgroup
    simp [hhas, eq_comm]

theorem shown_of_named (h : db.Named id) : Shown db id := by
  rcases h with ⟨r, hr, hnames⟩ | ⟨member, hmember, rfl, hgroup⟩
  · have hlisted : r ∈ listRelationships db id := List.mem_filter.mpr ⟨hr, hnames⟩
    rcases names_iff.mp hnames with rfl | rfl
    · exact .relationshipA hlisted
    · exact .relationshipB hlisted
  · exact .member (listMembers_eq_ok.mpr ⟨hgroup, rfl⟩) (List.mem_filter.mpr ⟨hmember, by simp⟩)

/-- Where nothing else is found first, a contact that can be found is shown. -/
theorem shown_of_findable {contact : Contact} (hcontact : contact ∈ db.contacts)
    (h : ¬ contact.Unfindable) : Shown db contact.id := by
  have hrows : (contact :: db.contacts.erase contact).Perm db.contacts :=
    (List.perm_cons_erase hcontact).symm
  by_cases hhashes : contact.identifierHashes = []
  · by_cases hname : contact.nameHash = none
    · obtain ⟨token, htoken⟩ :=
        List.exists_mem_of_ne_nil _ fun htokens => h ⟨hhashes, hname, htokens⟩
      refine .trigramTokens hrows contact.hubId [token] 1 ?_
      simp [searchByTrigramTokens, htoken]
    · obtain ⟨nameHash, hname⟩ := Option.ne_none_iff_exists'.mp hname
      refine .nameHash hrows contact.hubId nameHash ?_
      simp [lookupByNameHash, hname]
  · obtain ⟨hash, hhash⟩ := List.exists_mem_of_ne_nil _ hhashes
    refine .identifierHash hrows contact.hubId hash ?_
    simp [lookupByIdentifierHash, hhash]

/-- **No deleted contact is shown exactly if each has nothing to be found by, and nothing names
it.** -/
theorem hides_iff (hdb : Sound db) : Hides db ↔ Hidden db := by
  constructor
  · refine fun h =>
      ⟨fun contact hcontact hdeleted => ?_, fun id hnamed => h id (shown_of_named hnamed)⟩
    by_contra hfindable
    exact hdeleted ((live_iff hdb hcontact).mp (h _ (shown_of_findable hcontact hfindable)))
  · -- what a query finds of a deleted contact is what it has not
    have hfound : Hidden db → ∀ {rows : List Contact}, rows.Perm db.contacts →
        ∀ contact ∈ rows, ¬ contact.Unfindable → db.Live contact.id := by
      intro h rows hrows contact hcontact hfindable
      have hmem := hrows.mem_iff.mp hcontact
      exact (live_iff hdb hmem).mpr
        (by_contra fun hdeleted => hfindable (h.contacts _ hmem hdeleted))
    intro h id hshown
    cases hshown with
    | get hget =>
      unfold get at hget
      split at hget
      · cases hget
      · rename_i contact hcontact
        have hfound := List.find?_some hcontact
        simp only [Bool.and_eq_true, Option.isNone_iff_eq_none] at hfound
        obtain rfl := Except.ok.inj hget
        exact ⟨_, List.mem_of_find?_eq_some hcontact, rfl, hfound.2⟩
    | list hrows hlisted =>
      have hmem := List.mem_of_mem_drop (List.mem_of_mem_take hlisted)
      simp only [List.mem_filter, Bool.and_eq_true, Option.isNone_iff_eq_none] at hmem
      exact ⟨_, hrows.mem_iff.mp hmem.1, rfl, hmem.2.1.2⟩
    | identifierHash hrows hubId hash hlookup =>
      refine hfound h hrows _ (List.mem_of_find?_eq_some hlookup) fun hnone => ?_
      simpa [hnone.1] using List.find?_some hlookup
    | nameHash hrows hubId name hlookup =>
      refine hfound h hrows _ (List.mem_of_find?_eq_some hlookup) fun hnone => ?_
      simpa [hnone.2.1] using List.find?_some hlookup
    | trigramTokens hrows hubId tokens limit hsearch =>
      unfold searchByTrigramTokens at hsearch
      split_ifs at hsearch
      · cases hsearch
      · have hmem := List.mem_filter.mp (List.mem_of_mem_take hsearch)
        refine hfound h hrows _ hmem.1 fun hnone => ?_
        simpa [hnone.2.2] using hmem.2
    | relationshipA hlisted =>
      have hr := (List.mem_filter.mp hlisted).1
      exact h.named _ (.inl ⟨_, hr, names_iff.mpr (.inl rfl)⟩)
    | relationshipB hlisted =>
      have hr := (List.mem_filter.mp hlisted).1
      exact h.named _ (.inl ⟨_, hr, names_iff.mpr (.inr rfl)⟩)
    | member hlisted hmember =>
      obtain ⟨hgroup, rfl⟩ := listMembers_eq_ok.mp hlisted
      obtain ⟨hmem, hid⟩ := List.mem_filter.mp hmember
      exact h.named _ (.inr ⟨_, hmem, rfl, of_decide_eq_true hid ▸ hgroup⟩)

/-! ## Contacts -/

theorem hidden_insert (hdb : Hidden db) {rows : List Contact}
    (hrows : ∀ contact ∈ rows, contact.deletedAt = none) :
    Hidden { db with contacts := db.contacts ++ rows } := by
  refine ⟨fun contact hcontact hdeleted => ?_, fun id hnamed => ?_⟩
  · rcases List.mem_append.mp hcontact with hold | hnew
    · exact hdb.contacts contact hold hdeleted
    · exact absurd (hrows contact hnew) hdeleted
  · obtain ⟨contact, hcontact, hid⟩ := hdb.named id hnamed
    exact ⟨contact, List.mem_append_left _ hcontact, hid⟩

/-- Whether a contact is deleted, which most writes leave. -/
def Contact.state (contact : Contact) : String × Option Int := (contact.id, contact.deletedAt)

theorem live_congr {db' : Db}
    (h : db'.contacts.map Contact.state = db.contacts.map Contact.state) (id : String) :
    db'.Live id ↔ db.Live id := by
  have hlive : ∀ db : Db, db.Live id ↔ (id, none) ∈ db.contacts.map Contact.state := by
    intro db
    simp [Db.Live, Contact.state]
  rw [hlive, hlive, h]

theorem updateContact_hidden_iff (hdb : Hidden db) (id : String) (input : UpdateContactBody) :
    Hidden (updateContact db id input).1 ↔ Discreet db (.update id input) := by
  rw [updateContact_fst]
  have hlive : ∀ other, (db.updateContact id input.values).Live other ↔ db.Live other :=
    live_congr (map_updateContact Contact.state db id fun _ => rfl)
  constructor
  · intro h contact hcontact hid hdeleted
    obtain ⟨hhashes, hname, htokens⟩ := hdb.contacts contact hcontact hdeleted
    have hset : input.values contact ∈ (db.updateContact id input.values).contacts :=
      List.mem_map.mpr ⟨contact, hcontact, if_pos hid⟩
    have hblank := h.contacts _ hset hdeleted
    simpa [Contact.Unfindable, UpdateContactBody.values, UpdateContactBody.Blank, hhashes, hname,
      htokens] using hblank
  · intro hblank
    refine ⟨fun contact' hcontact' hdeleted => ?_, fun other hnamed => ?_⟩
    · obtain ⟨contact, hcontact, rfl⟩ := mem_update hcontact'
      split_ifs at hdeleted ⊢ with hid
      · obtain ⟨hhashes, hname, htokens⟩ := hdb.contacts contact hcontact hdeleted
        obtain ⟨hhashes', hname', htokens'⟩ := hblank contact hcontact hid hdeleted
        simp [Contact.Unfindable, UpdateContactBody.values, hhashes, hname, htokens, hhashes',
          hname', htokens']
      · exact hdb.contacts contact hcontact hdeleted
    · exact (hlive other).mpr (hdb.named other hnamed)

theorem deleted_live {id other : String} :
    (deleted db id).Live other ↔ other ≠ id ∧ db.Live other := by
  constructor
  · rintro ⟨contact, hcontact, rfl, hlive⟩
    obtain ⟨hmem, hne⟩ := List.mem_filter.mp hcontact
    exact ⟨by simpa using hne, contact, hmem, rfl, hlive⟩
  · rintro ⟨hne, contact, hcontact, rfl, hlive⟩
    exact ⟨contact, List.mem_filter.mpr ⟨hcontact, by simpa using hne⟩, rfl, hlive⟩

theorem delete_hidden (hdb : Hidden db) (id : String) : Hidden (delete db id).1 := by
  rw [delete_fst]
  split_ifs
  · have hkept : ∀ group : AffinityGroup, group.fewerMembers.id = group.id := fun _ => rfl
    refine ⟨fun contact hcontact => hdb.contacts contact (List.mem_of_mem_filter hcontact),
      fun other hnamed => deleted_live.mpr ?_⟩
    rcases hnamed with ⟨r, hr, hnames⟩ | ⟨member, hmember, rfl, hgroup⟩
    · obtain ⟨hmem, hid⟩ := List.mem_filter.mp hr
      refine ⟨?_, hdb.named other (.inl ⟨r, hmem, hnames⟩)⟩
      rintro rfl
      simp [hnames] at hid
    · obtain ⟨hmem, hid⟩ := List.mem_filter.mp hmember
      refine ⟨of_decide_eq_true hid, hdb.named _ (.inr ⟨member, hmem, rfl, ?_⟩)⟩
      unfold Db.HasGroup deleted dropMember at hgroup
      rwa [map_foldl_update AffinityGroup.id hkept] at hgroup
  · exact hdb

/-! ## What names them -/

theorem createRelationship_hidden_iff (hdb : Hidden db) (id a hubId : String)
    (input : CreateRelationshipBody) :
    Hidden (createRelationship db id a hubId input).1 ↔
      Discreet db (.createRelationship id a hubId input) := by
  rw [createRelationship_fst]
  split_ifs with hcreates
  · obtain ⟨hne, hknown, hknown', -⟩ := hcreates
    constructor
    · intro h _ _ _
      have hmem := List.mem_append_right db.contactRelationships (List.mem_singleton_self
        ({ id, hubId, contactIdA := a, contactIdB := input.contactIdB,
           relationshipType := input.relationshipType } : Relationship))
      exact ⟨h.named a (.inl ⟨_, hmem, names_iff.mpr (.inl rfl)⟩),
        h.named input.contactIdB (.inl ⟨_, hmem, names_iff.mpr (.inr rfl)⟩)⟩
    · intro hdiscreet
      obtain ⟨hlive, hlive'⟩ := hdiscreet hne hknown hknown'
      refine ⟨hdb.contacts, fun other hnamed => ?_⟩
      rcases hnamed with ⟨r, hr, hnames⟩ | hmember
      · rcases List.mem_append.mp hr with hold | hnew
        · exact hdb.named other (.inl ⟨r, hold, hnames⟩)
        · obtain rfl := List.mem_singleton.mp hnew
          rcases names_iff.mp hnames with rfl | rfl
          · exact hlive
          · exact hlive'
      · exact hdb.named other (.inr hmember)
  · refine iff_of_true hdb fun hne hknown hknown' => ?_
    -- there is one already, which names both
    have hjoins : ∃ r ∈ db.contactRelationships, r.joins a input.contactIdB = true := by
      by_contra hnone
      refine hcreates ⟨hne, hknown, hknown', fun r hr _ => ?_⟩
      exact Bool.eq_false_iff.mpr fun h => hnone ⟨r, hr, h⟩
    obtain ⟨r, hr, hjoins⟩ := hjoins
    have hboth : r.names a = true ∧ r.names input.contactIdB = true := by
      simp only [Relationship.joins, Bool.or_eq_true, Bool.and_eq_true, decide_eq_true_eq] at hjoins
      rw [names_iff, names_iff]
      rcases hjoins with ⟨ha, hb⟩ | ⟨ha, hb⟩
      · exact ⟨.inl ha, .inr hb⟩
      · exact ⟨.inr hb, .inl ha⟩
    exact ⟨hdb.named a (.inl ⟨r, hr, hboth.1⟩), hdb.named _ (.inl ⟨r, hr, hboth.2⟩)⟩

/-- Rows may go, and groups. -/
theorem hidden_mono (hdb : Hidden db) {relationships : List Relationship}
    {groups : List AffinityGroup} {members : List GroupMember}
    (hrelationships : relationships ⊆ db.contactRelationships)
    (hgroups : groups.map AffinityGroup.id ⊆ db.affinityGroups.map AffinityGroup.id)
    (hmembers : members ⊆ db.groupMembers) :
    Hidden { db with
      contactRelationships := relationships, affinityGroups := groups
      groupMembers := members } := by
  refine ⟨hdb.contacts, fun id hnamed => hdb.named id ?_⟩
  rcases hnamed with ⟨r, hr, hnames⟩ | ⟨member, hmember, hid, hgroup⟩
  · exact .inl ⟨r, hrelationships hr, hnames⟩
  · exact .inr ⟨member, hmembers hmember, hid, hgroups hgroup⟩

theorem createGroup_hidden_iff (hsound : Sound db) (hdb : Hidden db)
    (hid : Unused db [id]) (hubId : String) (members : List String) :
    Hidden (createGroup db id hubId members).1 ↔ Discreet db (.createGroup id hubId members) := by
  have hfresh := hid.members List.mem_cons_self
  rw [createGroup_fst hsound hfresh]
  split_ifs with hknown hnodup
  · constructor
    · intro h _ _ contactId hcontact
      refine h.named contactId (.inr ⟨⟨id, contactId⟩, ?_, rfl, ?_⟩)
      · exact List.mem_append_right _ (List.mem_map_of_mem hcontact)
      · simp [Db.HasGroup]
    · intro hdiscreet
      refine ⟨hdb.contacts, fun other hnamed => ?_⟩
      rcases hnamed with hr | ⟨member, hmember, rfl, hgroup⟩
      · exact hdb.named other (.inl hr)
      · rcases List.mem_append.mp hmember with hold | hnew
        · exact hdb.named _ (.inr ⟨member, hold, rfl, hasGroup_insert hfresh hold hgroup⟩)
        · obtain ⟨contactId, hcontact, rfl⟩ := List.mem_map.mp hnew
          exact hdiscreet hnodup hknown contactId hcontact
  · refine iff_of_true ⟨hdb.contacts, fun other hnamed => ?_⟩ fun h => absurd h hnodup
    rcases hnamed with hr | ⟨member, hmember, rfl, hgroup⟩
    · exact hdb.named other (.inl hr)
    · rw [List.append_nil] at hmember
      exact hdb.named _ (.inr ⟨member, hmember, rfl, hasGroup_insert hfresh hmember hgroup⟩)
  · exact iff_of_true hdb fun _ h => absurd h hknown

theorem deleteGroup_hidden (hdb : Hidden db) (id : String) : Hidden (deleteGroup db id).1 := by
  rw [deleteGroup_fst]
  split_ifs
  · exact hidden_mono hdb (List.Subset.refl _) (List.filter_sublist.map AffinityGroup.id).subset
      (List.filter_subset_self _)
  · exact hdb

theorem addMember_hidden_iff (hdb : Hidden db) (groupId contactId : String) :
    Hidden (addMember db groupId contactId).1 ↔ Discreet db (.addMember groupId contactId) := by
  have hgroups := fun added : Db => hasGroup_updateGroup added groupId
    (show ∀ group : AffinityGroup, group.moreMembers.id = group.id from fun _ => rfl)
  rw [addMember_fst]
  split_ifs with hadds
  · obtain ⟨hgroup, hknown, -⟩ := hadds
    constructor
    · intro h _ _
      refine h.named contactId (.inr ⟨⟨groupId, contactId⟩, ?_, rfl, (hgroups _ _).mpr hgroup⟩)
      exact List.mem_append_right _ (List.mem_singleton_self _)
    · intro hdiscreet
      refine ⟨hdb.contacts, fun other hnamed => ?_⟩
      rcases hnamed with hr | ⟨member, hmember, rfl, hhas⟩
      · exact hdb.named other (.inl hr)
      · rcases List.mem_append.mp hmember with hold | hnew
        · exact hdb.named _ (.inr ⟨member, hold, rfl, (hgroups _ _).mp hhas⟩)
        · obtain rfl := List.mem_singleton.mp hnew
          exact hdiscreet hgroup hknown
  · refine iff_of_true hdb fun hgroup hknown => ?_
    have hmember : db.HasMember groupId contactId :=
      not_not.mp fun hmember => hadds ⟨hgroup, hknown, hmember⟩
    exact hdb.named contactId (.inr ⟨_, hmember, rfl, hgroup⟩)

theorem removeMember_hidden (hdb : Hidden db) (groupId contactId : String) :
    Hidden (removeMember db groupId contactId).1 := by
  rw [removeMember_fst]
  split_ifs
  · refine hidden_mono hdb (List.Subset.refl _) ?_ (List.filter_subset_self _)
    rw [map_update AffinityGroup.id]
    · exact List.Subset.refl _
    · exact fun _ => rfl
  · exact hdb

/-! ## Merges -/

section Merge

variable {hubId : String} {body : MergeContactsBody} {now : Int}

/-- A merge deletes the secondary contact, and no other. -/
theorem merged_live {id : String} :
    (merged db hubId body now).Live id ↔ id ≠ body.secondaryId ∧ db.Live id := by
  unfold Db.Live
  rw [merged_contacts]
  constructor
  · rintro ⟨contact', hcontact', rfl, hlive⟩
    obtain ⟨contact, hcontact, rfl⟩ := List.mem_map.mp hcontact'
    obtain ⟨hid, hdeleted⟩ := contactAfter_state body now contact
    rw [hdeleted] at hlive
    split_ifs at hlive with hsecondary
    exact ⟨hid ▸ hsecondary, contact, hcontact, hid.symm, hlive⟩
  · rintro ⟨hne, contact, hcontact, rfl, hlive⟩
    obtain ⟨hid, hdeleted⟩ := contactAfter_state body now contact
    refine ⟨_, List.mem_map_of_mem hcontact, hid, ?_⟩
    rw [hdeleted, if_neg hne, hlive]

/-- Whether the merge leaves a contact findable that is deleted. -/
theorem merged_unfindable_iff (hdb : Hidden db) (body : MergeContactsBody) (now : Int)
    {contact : Contact} (hcontact : contact ∈ db.contacts) :
    ((body.contactAfter now contact).deletedAt ≠ none →
        (body.contactAfter now contact).Unfindable) ↔
      (contact.id = body.primaryId → contact.id ≠ body.secondaryId →
        contact.deletedAt ≠ none → body.Blank) := by
  rw [(contactAfter_state body now contact).2]
  unfold MergeContactsBody.contactAfter
  by_cases hsecondary : contact.id = body.secondaryId
  · simp [hsecondary, Contact.mergedInto, Contact.Unfindable]
  · by_cases hprimary : contact.id = body.primaryId
    · simp [hprimary, hprimary ▸ hsecondary, MergeContactsBody.values, Contact.Unfindable,
        MergeContactsBody.Blank]
    · simpa [hsecondary, hprimary] using hdb.contacts contact hcontact

theorem relink_names_iff {r : Relationship} {id : String} :
    (r.relink hubId body.primaryId body.secondaryId).names id = true ↔
      if r.hubId = hubId then
        (r.names body.secondaryId = true ∧ id = body.primaryId) ∨
          (r.names id = true ∧ id ≠ body.secondaryId)
      else r.names id = true := by
  unfold Relationship.relink
  split_ifs with hhub
  · simp only [names_iff, relinked]
    grind
  · rfl

/-- What names the secondary contact, and names the primary one after the merge. -/
def Db.Relinked (db : Db) (hubId id : String) : Prop :=
  (∃ r ∈ db.contactRelationships, r.hubId = hubId ∧ r.names id = true) ∨
    ∃ member ∈ db.groupMembers, member.contactId = id ∧ db.HasGroup member.groupId

theorem merged_named {id : String} :
    (merged db hubId body now).Named id ↔
      (id = body.primaryId ∧ db.Relinked hubId body.secondaryId) ∨
        (id ≠ body.secondaryId ∧ db.Named id) ∨
        ∃ r ∈ db.contactRelationships, r.hubId ≠ hubId ∧ id = body.secondaryId ∧
          r.names id = true := by
  have hgroup : ∀ groupId, (merged db hubId body now).HasGroup groupId ↔ db.HasGroup groupId :=
    fun _ => Iff.rfl
  constructor
  · rintro (⟨r', hr', hnames⟩ | ⟨member', hmember', rfl, hhas⟩)
    · obtain ⟨r, hr, rfl⟩ := List.mem_map.mp hr'
      rw [relink_names_iff] at hnames
      split_ifs at hnames with hhub
      · rcases hnames with ⟨hsecondary, rfl⟩ | ⟨hnames, hne⟩
        · exact .inl ⟨rfl, .inl ⟨r, hr, hhub, hsecondary⟩⟩
        · exact .inr (.inl ⟨hne, .inl ⟨r, hr, hnames⟩⟩)
      · by_cases hid : id = body.secondaryId
        · exact .inr (.inr ⟨r, hr, hhub, hid, hnames⟩)
        · exact .inr (.inl ⟨hid, .inl ⟨r, hr, hnames⟩⟩)
    · obtain ⟨member, hmember, rfl⟩ := mem_update hmember'
      by_cases hid : member.contactId = body.secondaryId
      · rw [if_pos hid] at hhas ⊢
        exact .inl ⟨rfl, .inr ⟨member, hmember, hid, hhas⟩⟩
      · rw [if_neg hid] at hhas ⊢
        exact .inr (.inl ⟨hid, .inr ⟨member, hmember, rfl, hhas⟩⟩)
  · have hrelink : ∀ r ∈ db.contactRelationships, r.relink hubId body.primaryId body.secondaryId ∈
        (merged db hubId body now).contactRelationships := fun r hr => List.mem_map_of_mem hr
    rintro (⟨rfl, hrelinked⟩ | ⟨hne, hnamed⟩ | ⟨r, hr, hhub, rfl, hnames⟩)
    · rcases hrelinked with ⟨r, hr, hhub, hnames⟩ | ⟨member, hmember, hid, hhas⟩
      · refine .inl ⟨_, hrelink r hr, relink_names_iff.mpr ?_⟩
        rw [if_pos hhub]
        exact .inl ⟨hnames, rfl⟩
      · exact .inr ⟨_, List.mem_map.mpr ⟨member, hmember, if_pos hid⟩, rfl, hhas⟩
    · rcases hnamed with ⟨r, hr, hnames⟩ | ⟨member, hmember, rfl, hhas⟩
      · refine .inl ⟨_, hrelink r hr, relink_names_iff.mpr ?_⟩
        split_ifs
        · exact .inr ⟨hnames, hne⟩
        · exact hnames
      · exact .inr ⟨_, List.mem_map.mpr ⟨member, hmember, if_neg hne⟩, rfl, hhas⟩
    · refine .inl ⟨_, hrelink r hr, relink_names_iff.mpr ?_⟩
      rw [if_neg hhub]
      exact hnames

theorem merged_hidden_iff (hsound : Sound db) (hdb : Hidden db)
    (hprimary : db.Known body.primaryId) :
    Hidden (merged db hubId body now) ↔
      (body.primaryId ≠ body.secondaryId → db.Live body.primaryId ∨ body.Blank) ∧
      (∀ r ∈ db.contactRelationships, r.names body.secondaryId = true → r.hubId = hubId) ∧
      (db.Named body.secondaryId →
        body.primaryId ≠ body.secondaryId ∧ db.Live body.primaryId) := by
  have hcontacts : (∀ contact ∈ (merged db hubId body now).contacts, contact.deletedAt ≠ none →
      contact.Unfindable) ↔
        (body.primaryId ≠ body.secondaryId → db.Live body.primaryId ∨ body.Blank) := by
    rw [merged_contacts, List.forall_mem_map]
    refine (forall₂_congr fun contact (hcontact : contact ∈ db.contacts) =>
      merged_unfindable_iff hdb body now hcontact).trans ?_
    obtain ⟨primary, hmem, hid⟩ := List.mem_map.mp hprimary
    constructor
    · intro h hne
      refine or_iff_not_imp_left.mpr fun hdead => h primary hmem hid (hid ▸ hne) fun hlive => ?_
      exact hdead (hid ▸ (live_iff hsound hmem).mpr hlive)
    · intro h contact hcontact hsame hne hdeleted
      refine (h (hsame ▸ hne)).resolve_left fun hlive => hdeleted ?_
      exact (live_iff hsound hcontact).mp (hsame ▸ hlive)
  constructor
  · intro h
    have hrelinked : db.Relinked hubId body.secondaryId →
        body.primaryId ≠ body.secondaryId ∧ db.Live body.primaryId := fun hrelinked =>
      merged_live.mp (h.named _ (merged_named.mpr (.inl ⟨rfl, hrelinked⟩)))
    have hhubs : ∀ r ∈ db.contactRelationships, r.names body.secondaryId = true →
        r.hubId = hubId := by
      intro r hr hnames
      by_contra hhub
      exact (merged_live.mp (h.named _
        (merged_named.mpr (.inr (.inr ⟨r, hr, hhub, rfl, hnames⟩))))).1 rfl
    refine ⟨hcontacts.mp h.contacts, hhubs, fun hnamed => hrelinked ?_⟩
    rcases hnamed with ⟨r, hr, hnames⟩ | hmember
    · exact .inl ⟨r, hr, hhubs r hr hnames, hnames⟩
    · exact .inr hmember
  · rintro ⟨hblank, hhubs, hnamed⟩
    refine ⟨hcontacts.mpr hblank, fun id hid => merged_live.mpr ?_⟩
    rcases merged_named.mp hid with ⟨rfl, hrelinked⟩ | ⟨hne, hold⟩ | ⟨r, hr, hhub, rfl, hnames⟩
    · refine hnamed ?_
      rcases hrelinked with ⟨r, hr, -, hnames⟩ | hmember
      · exact .inl ⟨r, hr, hnames⟩
      · exact .inr hmember
    · exact ⟨hne, hdb.named id hold⟩
    · exact absurd (hhubs r hr hnames) hhub

theorem mergeContacts_hidden_iff (hsound : Sound db) (hdb : Hidden db) :
    Hidden (mergeContacts db hubId body now).1 ↔
      Discreet db (.mergeContacts hubId body now) := by
  rw [mergeContacts_fst hsound]
  split_ifs with hmerges
  · obtain ⟨contact, hcontact, hid, -⟩ := hmerges.1
    have hknown : db.Known body.primaryId := hid ▸ List.mem_map_of_mem hcontact
    rw [merged_hidden_iff hsound hdb hknown]
    exact ⟨fun h _ => h, fun h => h hmerges⟩
  · exact iff_of_true hdb fun h => absurd h hmerges

end Merge

/-! ## Bulk actions -/

theorem validIds_live {hubId : String} {contactIds : List String}
    (h : id ∈ db.validIds hubId contactIds) : db.Live id := by
  obtain ⟨contact, hcontact, rfl⟩ := List.mem_map.mp h
  simp only [List.mem_filter, Bool.and_eq_true, Option.isNone_iff_eq_none] at hcontact
  exact ⟨contact, hcontact.1, rfl, hcontact.2.2⟩

/-- The contacts that are valid are deleted, and no others. -/
theorem bulkDeleted_live {ids : List String} {now : Int} :
    Db.Live { db with contacts := bulkDeleted db.contacts ids now } id ↔
      id ∉ ids ∧ db.Live id := by
  constructor
  · rintro ⟨contact', hcontact', rfl, hlive⟩
    obtain ⟨contact, hcontact, rfl⟩ := List.mem_map.mp hcontact'
    split_ifs at hlive ⊢ with hid
    exact ⟨by simpa using hid, contact, hcontact, rfl, hlive⟩
  · rintro ⟨hid, contact, hcontact, rfl, hlive⟩
    exact ⟨contact, List.mem_map.mpr ⟨contact, hcontact, if_neg (by simpa using hid)⟩, rfl, hlive⟩

theorem bulkDelete_hidden_iff (hdb : Hidden db) (hubId : String) (contactIds : List String)
    (now : Int) :
    Hidden (bulkAction db hubId contactIds .delete now).1 ↔
      Discreet db (.bulkAction hubId contactIds .delete now) := by
  have hlive : ∀ id, (bulkAction db hubId contactIds .delete now).1.Live id ↔
      id ∉ db.validIds hubId contactIds ∧ db.Live id := fun id => bulkDeleted_live
  constructor
  · intro h contact hcontact hid
    refine ⟨h.contacts { contact with deletedAt := some now } ?_ (Option.some_ne_none now),
      fun hnamed => ((hlive _).mp (h.named _ hnamed)).1 hid⟩
    exact List.mem_map.mpr ⟨contact, hcontact, if_pos (by simpa using hid)⟩
  · intro hdiscreet
    refine ⟨fun contact' hcontact' hdeleted => ?_, fun id hnamed => (hlive id).mpr ⟨?_, ?_⟩⟩
    · obtain ⟨contact, hcontact, rfl⟩ := List.mem_map.mp hcontact'
      split_ifs at hdeleted ⊢ with hid
      · exact (hdiscreet contact hcontact (by simpa using hid)).1
      · exact hdb.contacts contact hcontact hdeleted
    · intro hid
      obtain ⟨contact, hcontact, rfl⟩ := List.mem_map.mp (validIds_live hid).known
      exact (hdiscreet contact hcontact hid).2 hnamed
    · exact hdb.named id hnamed

/-- What the setting of tags leaves of a contact. -/
def Contact.untagged (contact : Contact) : Contact := { contact with tagHashes := [] }

theorem setTags_hidden (hdb : Hidden db) (hubId : String)
    (indexes : List (String × List String)) :
    Hidden { db with contacts := setTags db.contacts hubId indexes } := by
  have huntagged := map_setTags Contact.untagged (fun _ _ => rfl) hubId indexes db.contacts
  have hstate := map_setTags Contact.state (fun _ _ => rfl) hubId indexes db.contacts
  refine ⟨fun contact' hcontact' hdeleted => ?_, fun id hnamed => ?_⟩
  · obtain ⟨contact, hcontact, heq⟩ :=
      List.mem_map.mp (huntagged ▸ List.mem_map_of_mem hcontact')
    have hsame : contact.deletedAt = contact'.deletedAt ∧
        (contact.Unfindable → contact'.Unfindable) := by
      cases contact
      cases contact'
      simp only [Contact.untagged, Contact.mk.injEq] at heq
      simp [Contact.Unfindable, heq]
    exact hsame.2 (hdb.contacts contact hcontact (hsame.1 ▸ hdeleted))
  · exact (live_congr hstate id).mpr (hdb.named id hnamed)

theorem bulkAction_hidden_iff (hdb : Hidden db) (hubId : String) (contactIds : List String)
    (action : BulkAction) (now : Int) :
    Hidden (bulkAction db hubId contactIds action now).1 ↔
      Discreet db (.bulkAction hubId contactIds action now) := by
  cases action with
  | delete => exact bulkDelete_hidden_iff hdb hubId contactIds now
  | addTags indexes | removeTags indexes =>
    exact iff_of_true (setTags_hidden hdb hubId indexes) trivial
  | addToGroup groupId =>
    refine iff_of_true ⟨hdb.contacts, fun id hnamed => ?_⟩ trivial
    rcases hnamed with hr | ⟨member, hmember, rfl, hgroup⟩
    · exact hdb.named id (.inl hr)
    · rcases List.mem_append.mp hmember with hold | hnew
      · exact hdb.named _ (.inr ⟨member, hold, rfl, hgroup⟩)
      · obtain ⟨id, hid, rfl⟩ := List.mem_map.mp (List.mem_of_mem_filter hnew)
        exact validIds_live hid
  | removeFromGroup groupId =>
    exact iff_of_true (hidden_mono hdb (List.Subset.refl _) (List.Subset.refl _)
      (List.filter_subset_self _)) trivial
  | setRiskLevel => exact iff_of_true hdb trivial

/-! ## Every operation -/

/-- **An operation keeps the deleted contacts hidden exactly if it meets the condition.** -/
theorem call_hidden_iff (hsound : Sound db) (hdb : Hidden db) {op : Op}
    (hdrawn : Unused db op.drawn) : Hidden (call db op) ↔ Discreet db op := by
  cases op with
  | create id input =>
    refine iff_of_true (hidden_insert hdb fun contact hcontact => ?_) trivial
    rw [List.mem_singleton.mp hcontact]
    rfl
  | bulkCreate hubId batch =>
    refine iff_of_true ?_ trivial
    unfold call bulkCreate
    dsimp only
    split_ifs
    · exact hdb
    · refine hidden_insert hdb fun contact hcontact => ?_
      obtain ⟨entry, -, rfl⟩ := List.mem_map.mp hcontact
      rfl
  | update id input => exact updateContact_hidden_iff hdb id input
  | delete id => exact iff_of_true (delete_hidden hdb id) trivial
  | createRelationship id a hubId input => exact createRelationship_hidden_iff hdb id a hubId input
  | deleteRelationship contactId relId =>
    refine iff_of_true ?_ trivial
    unfold call
    dsimp only
    rw [deleteRelationship_fst]
    split_ifs
    · exact hidden_mono hdb (List.filter_subset_self _) (List.Subset.refl _) (List.Subset.refl _)
    · exact hdb
  | createGroup id hubId members => exact createGroup_hidden_iff hsound hdb hdrawn hubId members
  | deleteGroup id => exact iff_of_true (deleteGroup_hidden hdb id) trivial
  | addMember groupId contactId => exact addMember_hidden_iff hdb groupId contactId
  | removeMember groupId contactId =>
    exact iff_of_true (removeMember_hidden hdb groupId contactId) trivial
  | mergeContacts hubId body now => exact mergeContacts_hidden_iff hsound hdb
  | bulkAction hubId contactIds action now =>
    exact bulkAction_hidden_iff hdb hubId contactIds action now

/-- **In a run from the empty directory, no deleted contact is shown in any state exactly if all its
operations are discreet.** -/
theorem hides_iff_along {ops : List Op} (h : Runs.run step {} ops = some db) :
    (∀ before after db, ops = before ++ after → Runs.run step {} before = some db → Hides db) ↔
      Runs.Along step Discreet {} ops := by
  refine Runs.inv_iff_along (I := Sound) (fun db op db' hsound hstep => ?_)
    (fun db op db' hsound hdb hstep => ?_) empty_sound
    ((hides_iff empty_sound).mpr ⟨nofun, ?_⟩) h
  · obtain ⟨hdrawn, rfl⟩ := step_spec hstep
    exact call_sound hsound hdrawn
  · obtain ⟨hdrawn, rfl⟩ := step_spec hstep
    rw [hides_iff (call_sound hsound hdrawn)]
    exact call_hidden_iff hsound ((hides_iff hsound).mp hdb) hdrawn
  · simp [Db.Named]

instance : DecidablePred Contact.Unfindable := fun _ => inferInstanceAs (Decidable (_ ∧ _ ∧ _))

instance : DecidablePred UpdateContactBody.Blank :=
  fun _ => inferInstanceAs (Decidable (_ ∧ _ ∧ _))

instance : DecidablePred MergeContactsBody.Blank :=
  fun _ => inferInstanceAs (Decidable (_ ∧ _ ∧ _))

instance (db : Db) : DecidablePred db.Named :=
  fun _ => inferInstanceAs (Decidable ((∃ _ ∈ _, _) ∨ ∃ _ ∈ _, _))

instance : DecidableRel Discreet := fun db op => by
  cases op with
  | bulkAction hubId contactIds action now =>
    cases action <;> unfold Discreet <;> infer_instance
  | _ => unfold Discreet; infer_instance

/-- Two contacts of a hub, with a relationship to a third one, and a group. -/
def directory : List Op :=
  [.create "ann" { hubId := "hub", identifierHashes := ["#1"], nameHash := some "#ann" },
    .create "bea" { hubId := "hub", identifierHashes := ["#2"] },
    .create "cai" { hubId := "hub", identifierHashes := ["#3"], trigramTokens := some ["cai"] },
    .createRelationship "rel" "bea" "hub" { contactIdB := "cai", relationshipType := "family" },
    .createGroup "group" "hub" ["bea", "cai"]]

/-- One of them is merged into another, and a third one deleted. -/
def fewer : List Op :=
  [.mergeContacts "hub"
      { primaryId := "ann"
        secondaryId := "bea"
        identifierHashes := some ["#1", "#2"] } 0,
    .delete "cai"]

theorem fewer_hidden :
    ∃ db, Runs.run step {} (directory ++ fewer) = some db ∧
      ∀ before after db, directory ++ fewer = before ++ after →
        Runs.run step {} before = some db → Hides db := by
  have hrun : (Runs.run step {} (directory ++ fewer)).isSome := by decide +kernel
  obtain ⟨db, hdb⟩ := Option.isSome_iff_exists.mp hrun
  exact ⟨db, hdb, (hides_iff_along hdb).mpr (by decide +kernel)⟩

/-- **A contact that the bulk action has deleted is found by its hash.** -/
theorem deleted_found :
    ∃ db ∈ Runs.run step {} (directory ++ [.bulkAction "hub" ["ann"] .delete 0]), ¬ Hides db := by
  have hrun : ∃ db ∈ Runs.run step {} (directory ++ [.bulkAction "hub" ["ann"] .delete 0]),
      ¬ db.Live "ann" ∧ ∃ contact ∈ lookupByIdentifierHash db.contacts "hub" "#1",
        contact.id = "ann" := by
    decide +kernel
  obtain ⟨db, hdb, hdead, contact, hlookup, hid⟩ := hrun
  exact ⟨db, hdb, fun h => hdead (hid ▸ h _ (.identifierHash (.refl _) "hub" "#1" hlookup))⟩

end Llamenos.Worker.Contacts

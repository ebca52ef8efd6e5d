import Llamenos.Worker.Contacts.Deleted
import Mathlib

/-!
# Members of affinity groups

A group counts its members. `addMember`, `removeMember` and `delete` change the count beside the
rows, and so does `createGroup`, unless a contact is named twice; then the group stays, with a count
of members that were never inserted. The bulk actions change rows, or delete contacts, and no count;
a merge moves a row from one contact to another. No operation asks whether a contact that it counts
is deleted.

Results:
* `call_tallied_iff`: an operation keeps the counts right exactly if it meets `Counts`.
* `memberCounts_iff_along`: **in a run, every group counts its members that are not deleted, in
  every state, exactly if all its operations do**.
* `bulk_uncounted`: a member that is added and not counted.
-/

namespace Llamenos.Worker.Contacts

open Llamenos.Lib Llamenos.Lib.Counters

variable {db db' : Db}

/-! ## The property -/

/-- The members of the group that are not deleted. -/
def Db.membersOf (db : Db) (groupId : String) : List String :=
  ((db.groupMembers.filter fun member => member.groupId = groupId).map GroupMember.contactId).filter
    fun id => db.Live id

/-- Every group counts the contacts that are its members, each once. -/
def Tallied (db : Db) : Prop :=
  ∀ group ∈ db.affinityGroups, group.memberCount = (db.membersOf group.id).dedup.length

/-- The contact is a member of a group that there is. -/
def Db.Grouped (db : Db) (id : String) : Prop :=
  ∃ member ∈ db.groupMembers, member.contactId = id ∧ db.HasGroup member.groupId

/-- What an operation must be, to keep the counts right. -/
def Counts (db : Db) : Op → Prop
  | .delete id =>
    db.Known id → db.Live id ∨
      ∀ member ∈ db.groupMembers, member.contactId = id → db.HasGroup member.groupId →
        db.membersOf member.groupId = []
  | .createGroup _ _ members =>
    (∀ id ∈ members, db.Known id) → members.Nodup ∧ ∀ id ∈ members, db.Live id
  | .addMember groupId contactId =>
    db.HasGroup groupId → db.Known contactId → ¬ db.HasMember groupId contactId →
      db.Live contactId
  | .removeMember groupId contactId =>
    db.HasGroup groupId → db.HasMember groupId contactId →
      db.Live contactId ∨ db.membersOf groupId = []
  | .mergeContacts hubId body _ =>
    Merges db hubId body → db.Grouped body.secondaryId →
      (db.Live body.secondaryId ↔ body.primaryId ≠ body.secondaryId ∧ db.Live body.primaryId)
  | .bulkAction hubId contactIds .delete _ =>
    ∀ id ∈ db.validIds hubId contactIds, ¬ db.Grouped id
  | .bulkAction hubId contactIds (.addToGroup groupId) _ =>
    db.HasGroup groupId → ∀ id ∈ db.validIds hubId contactIds, db.HasMember groupId id
  | .bulkAction hubId contactIds (.removeFromGroup groupId) _ =>
    db.HasGroup groupId → ∀ id ∈ db.validIds hubId contactIds, ¬ db.HasMember groupId id
  | _ => True

/-! ## What is counted -/

/-- The rows of the group whose contact is not deleted. -/
def Db.tally (db : Db) (groupId : String) : Nat :=
  db.groupMembers.countP fun member => member.groupId = groupId ∧ db.Live member.contactId

theorem membersOf_length (db : Db) (groupId : String) :
    (db.membersOf groupId).length = db.tally groupId := by
  unfold Db.membersOf Db.tally
  rw [← List.countP_eq_length_filter, List.countP_map, List.countP_filter]
  refine List.countP_congr fun member _ => ?_
  simp [and_comm]

theorem membersOf_nodup (hdb : Sound db) (groupId : String) : (db.membersOf groupId).Nodup := by
  refine ((hdb.members.filter _).map_on fun member hmember other hother heq => ?_).filter _
  simp only [List.mem_filter, decide_eq_true_eq] at hmember hother
  cases member
  cases other
  simp_all

theorem membersOf_eq_nil {groupId : String} : db.membersOf groupId = [] ↔ db.tally groupId = 0 := by
  rw [← membersOf_length, List.length_eq_zero_iff]

theorem tallied_iff (hdb : Sound db) :
    Tallied db ↔ ∀ group ∈ db.affinityGroups, group.memberCount = db.tally group.id := by
  unfold Tallied
  refine forall₂_congr fun group _ => ?_
  rw [(membersOf_nodup hdb group.id).dedup, membersOf_length]

/-- Of the rows that are counted, some are not counted any more. -/
theorem countP_eq_iff {α : Type} {l : List α} {p q : α → Bool} (h : ∀ a ∈ l, q a → p a) :
    l.countP q = l.countP p ↔ ∀ a ∈ l, p a → q a := by
  induction l with
  | nil => simp
  | cons a l ih =>
    have hle : l.countP q ≤ l.countP p :=
      List.countP_mono_left fun b hb => h b (List.mem_cons_of_mem a hb)
    have hrest := ih fun b hb => h b (List.mem_cons_of_mem a hb)
    have hfirst := h a List.mem_cons_self
    rw [List.countP_cons, List.countP_cons, List.forall_mem_cons, ← hrest]
    cases hp : p a <;> cases hq : q a <;> simp_all
    omega

/-- The groups stay, and what they count. -/
theorem tallied_frame_iff (hsound : Sound db) (hsound' : Sound db') (hdb : Tallied db)
    (hgroups : db'.affinityGroups = db.affinityGroups) :
    Tallied db' ↔ ∀ id, db.HasGroup id → db'.tally id = db.tally id := by
  rw [tallied_iff hsound] at hdb
  rw [tallied_iff hsound', hgroups]
  constructor
  · intro h id hid
    obtain ⟨group, hgroup, rfl⟩ := List.mem_map.mp hid
    rw [← h group hgroup, hdb group hgroup]
  · intro h group hgroup
    rw [hdb group hgroup, h group.id (List.mem_map_of_mem hgroup)]

/-- The count of one group is set. -/
theorem tallied_update_iff (hsound : Sound db) (hsound' : Sound db') (hdb : Tallied db)
    {groupId : String} (hgroup : db.HasGroup groupId) (set : Nat → Nat)
    (hgroups : db'.affinityGroups = update AffinityGroup.id db.affinityGroups groupId
      fun group => { group with memberCount := set group.memberCount })
    (hothers : ∀ id, id ≠ groupId → db'.tally id = db.tally id) :
    Tallied db' ↔ db'.tally groupId = set (db.tally groupId) := by
  rw [tallied_iff hsound] at hdb
  rw [tallied_iff hsound', hgroups]
  constructor
  · intro h
    obtain ⟨group, hmem, rfl⟩ := List.mem_map.mp hgroup
    have hset := h _ (List.mem_map.mpr ⟨group, hmem, if_pos rfl⟩)
    rw [← hdb group hmem]
    exact hset.symm
  · intro h group' hgroup'
    obtain ⟨group, hmem, rfl⟩ := mem_update hgroup'
    split_ifs with hid
    · dsimp only
      rw [hid, h, hdb group hmem, hid]
    · rw [hothers group.id hid, hdb group hmem]

theorem tallied_same (hsound : Sound db) (hsound' : Sound db') (hdb : Tallied db)
    (hgroups : db'.affinityGroups = db.affinityGroups)
    (hmembers : db'.groupMembers = db.groupMembers)
    (hlive : ∀ member ∈ db.groupMembers,
      (db'.Live member.contactId ↔ db.Live member.contactId)) : Tallied db' := by
  refine (tallied_frame_iff hsound hsound' hdb hgroups).mpr fun id _ => ?_
  unfold Db.tally
  rw [hmembers]
  refine List.countP_congr fun member hmember => ?_
  simp [hlive member hmember]

/-! ## Contacts -/

/-- Contacts come that nothing names. -/
theorem tallied_insert (hsound : Sound db) (hdb : Tallied db) {rows : List Contact}
    (hsound' : Sound { db with contacts := db.contacts ++ rows })
    (hrows : (rows.map Contact.id).Disjoint (db.groupMembers.map GroupMember.contactId)) :
    Tallied { db with contacts := db.contacts ++ rows } := by
  refine tallied_same hsound hsound' hdb rfl rfl fun member hmember => ?_
  constructor
  · rintro ⟨contact, hcontact, hid, hlive⟩
    rcases List.mem_append.mp hcontact with hold | hnew
    · exact ⟨contact, hold, hid, hlive⟩
    · exact (hrows (hid ▸ List.mem_map_of_mem hnew) (List.mem_map_of_mem hmember)).elim
  · rintro ⟨contact, hcontact, hid⟩
    exact ⟨contact, List.mem_append_left _ hcontact, hid⟩

theorem dropMember_eq (groups : List AffinityGroup) (groupIds : List String) :
    dropMember groups groupIds = groups.map fun group =>
      { group with memberCount := group.memberCount - groupIds.count group.id } := by
  unfold dropMember
  induction groupIds generalizing groups with
  | nil => simp
  | cons groupId groupIds ih =>
    rw [List.foldl_cons, ih]
    unfold update
    rw [List.map_map]
    refine List.map_congr_left fun group _ => ?_
    dsimp only [Function.comp]
    by_cases hid : group.id = groupId
    · rw [if_pos hid]
      simp [AffinityGroup.fewerMembers, hid, Nat.sub_sub, Nat.add_comm]
    · rw [if_neg hid, List.count_cons_of_ne (Ne.symm hid)]

theorem groupsOf_count (hdb : Sound db) (id groupId : String) :
    (db.groupsOf id).count groupId = if db.HasMember groupId id then 1 else 0 := by
  have hnodup : (db.groupsOf id).Nodup := by
    refine (hdb.members.filter _).map_on fun member hmember other hother heq => ?_
    simp only [List.mem_filter, decide_eq_true_eq] at hmember hother
    cases member
    cases other
    simp_all
  have hmem : groupId ∈ db.groupsOf id ↔ db.HasMember groupId id := by
    constructor
    · intro h
      obtain ⟨member, hmember, rfl⟩ := List.mem_map.mp h
      simp only [List.mem_filter, decide_eq_true_eq] at hmember
      exact hmember.2 ▸ hmember.1
    · intro h
      exact List.mem_map.mpr ⟨_, List.mem_filter.mpr ⟨h, by simp⟩, rfl⟩
  rw [hnodup.count]
  simp [hmem]

/-- A contact that is not deleted is counted in each of its groups, and goes from them with its
row. -/
theorem deleted_tally (hdb : Sound db) (id groupId : String) :
    db.tally groupId = (deleted db id).tally groupId +
      if db.HasMember groupId id ∧ db.Live id then 1 else 0 := by
  have hown : (db.groupMembers.filter fun member => member.contactId = id).countP
      (fun member => member.groupId = groupId ∧ db.Live member.contactId) =
        if db.HasMember groupId id ∧ db.Live id then 1 else 0 := by
    by_cases hlive : db.Live id
    · simp only [hlive, and_true]
      rw [← groupsOf_count hdb, Db.groupsOf, List.count_eq_countP, List.countP_map]
      refine List.countP_congr fun member hmember => ?_
      have hid : member.contactId = id := of_decide_eq_true (List.mem_filter.mp hmember).2
      simp [hid, hlive]
    · rw [if_neg fun h => hlive h.2]
      refine List.countP_eq_zero.mpr fun member hmember => ?_
      have hid : member.contactId = id := of_decide_eq_true (List.mem_filter.mp hmember).2
      simp [hid, hlive]
  have hothers : (db.groupMembers.filter fun member => member.contactId ≠ id).countP
      (fun member => member.groupId = groupId ∧ db.Live member.contactId) =
        (deleted db id).tally groupId := by
    refine List.countP_congr fun member hmember => ?_
    have hne : member.contactId ≠ id := of_decide_eq_true (List.mem_filter.mp hmember).2
    simp [deleted_live, hne]
  rw [← hown, ← hothers]
  have hparts := List.countP_eq_countP_filter_add db.groupMembers
    (fun member => member.groupId = groupId ∧ db.Live member.contactId)
    fun member => member.contactId = id
  simp only [← decide_not] at hparts
  rw [Nat.add_comm]
  exact hparts

/-- `delete` takes one from the count of each group of the contact, whether it is counted or not. -/
theorem delete_tallied_iff (hsound : Sound db) (hdb : Tallied db) {id : String}
    (hsound' : Sound (delete db id).1) :
    Tallied (delete db id).1 ↔ Counts db (.delete id) := by
  rw [delete_fst] at hsound' ⊢
  split_ifs at hsound' ⊢ with hknown
  · rw [tallied_iff hsound] at hdb
    rw [tallied_iff hsound']
    have hgroups : (deleted db id).affinityGroups = db.affinityGroups.map fun group =>
        { group with memberCount := group.memberCount - (db.groupsOf id).count group.id } :=
      dropMember_eq _ _
    rw [hgroups, List.forall_mem_map]
    unfold Counts
    simp only [membersOf_eq_nil, groupsOf_count hsound]
    constructor
    · intro h _
      refine or_iff_not_imp_left.mpr fun hdead member hmember hid hgroup => ?_
      obtain ⟨group, hmem, hgid⟩ := List.mem_map.mp hgroup
      have hhas : db.HasMember group.id id := by
        rw [hgid, ← hid]
        exact hmember
      have hcount := h group hmem
      have htally := deleted_tally hsound id group.id
      rw [hdb group hmem, if_pos hhas] at hcount
      rw [if_neg fun h => hdead h.2] at htally
      rw [← hgid]
      omega
    · intro h group hmem
      have htally := deleted_tally hsound id group.id
      rw [hdb group hmem]
      by_cases hhas : db.HasMember group.id id
      · rcases h hknown with hlive | hnone
        · rw [if_pos ⟨hhas, hlive⟩] at htally
          rw [if_pos hhas]
          omega
        · have hzero := hnone _ hhas rfl (List.mem_map_of_mem hmem)
          dsimp only at hzero
          omega
      · rw [if_neg fun h => hhas h.1] at htally
        rw [if_neg hhas]
        exact htally
  · exact iff_of_true hdb fun h => absurd h hknown

/-! ## Groups -/

theorem tally_eq_zero {groupId : String}
    (h : groupId ∉ db.groupMembers.map GroupMember.groupId) : db.tally groupId = 0 := by
  refine List.countP_eq_zero.mpr fun member hmember hcounted => h ?_
  exact (of_decide_eq_true hcounted).1 ▸ List.mem_map_of_mem hmember

theorem countP_memberRows (db : Db) (id groupId : String) (members : List String) :
    (memberRows id members).countP
        (fun member => member.groupId = groupId ∧ db.Live member.contactId) =
      if id = groupId then members.countP fun id => db.Live id else 0 := by
  unfold memberRows
  rw [List.countP_map]
  split_ifs with hid
  · refine List.countP_congr fun member _ => ?_
    simp [hid]
  · refine List.countP_eq_zero.mpr fun member _ => ?_
    simp [hid]

theorem createGroup_tallied_iff (hsound : Sound db) (hdb : Tallied db) {id : String}
    (hid : Unused db [id]) (hubId : String) (members : List String)
    (hsound' : Sound (createGroup db id hubId members).1) :
    Tallied (createGroup db id hubId members).1 ↔ Counts db (.createGroup id hubId members) := by
  have hfresh := hid.members List.mem_cons_self
  have hnew := hid.groups List.mem_cons_self
  rw [createGroup_fst hsound hfresh] at hsound' ⊢
  split_ifs at hsound' ⊢ with hknown hnodup
  · rw [tallied_iff hsound] at hdb
    rw [tallied_iff hsound', List.forall_mem_append, List.forall_mem_singleton]
    have htally : ∀ groupId, Db.tally
        { db with
          affinityGroups := db.affinityGroups ++ [{ id, hubId, memberCount := members.length }]
          groupMembers := db.groupMembers ++ memberRows id members } groupId =
        db.tally groupId + if id = groupId then members.countP (fun id => db.Live id) else 0 := by
      intro groupId
      unfold Db.tally
      rw [List.countP_append]
      exact congrArg (_ + ·) (countP_memberRows db id groupId members)
    have hold : ∀ group ∈ db.affinityGroups, id ≠ group.id := fun group hgroup heq =>
      hnew (heq ▸ List.mem_map_of_mem hgroup)
    simp only [htally, if_true, tally_eq_zero hfresh, Nat.zero_add]
    constructor
    · rintro ⟨-, hcount⟩ -
      exact ⟨hnodup, fun contactId hmem =>
        of_decide_eq_true (List.countP_eq_length.mp hcount.symm contactId hmem)⟩
    · intro h
      refine ⟨fun group hgroup => ?_, ?_⟩
      · rw [if_neg (hold group hgroup), Nat.add_zero]
        exact hdb group hgroup
      · exact (List.countP_eq_length.mpr fun contactId hmem =>
          decide_eq_true ((h hknown).2 contactId hmem)).symm
  · refine iff_of_false (fun h => ?_) fun h => hnodup (h hknown).1
    rw [tallied_iff hsound'] at h
    have hcount := h { id, hubId, memberCount := members.length }
      (List.mem_append_right _ (List.mem_singleton_self _))
    have hzero : members.length = 0 := by
      refine hcount.trans (tally_eq_zero ?_)
      rw [List.append_nil]
      exact hfresh
    rw [List.length_eq_zero_iff.mp hzero] at hnodup
    exact hnodup List.nodup_nil
  · exact iff_of_true hdb fun h => absurd h hknown

theorem deleteGroup_tallied (hsound : Sound db) (hdb : Tallied db) {id : String}
    (hsound' : Sound (deleteGroup db id).1) : Tallied (deleteGroup db id).1 := by
  rw [deleteGroup_fst] at hsound' ⊢
  split_ifs at hsound' ⊢
  · rw [tallied_iff hsound] at hdb
    rw [tallied_iff hsound']
    intro group hgroup
    obtain ⟨hmem, hne⟩ := List.mem_filter.mp hgroup
    rw [hdb group hmem]
    unfold Db.tally
    rw [List.countP_filter]
    refine List.countP_congr fun member _ => ?_
    have hother : group.id ≠ id := of_decide_eq_true hne
    simp only [Bool.and_eq_true, decide_eq_true_eq]
    refine ⟨fun h => ⟨h, h.1 ▸ hother⟩, And.left⟩
  · exact hdb

theorem addMember_tallied_iff (hsound : Sound db) (hdb : Tallied db) {groupId contactId : String}
    (hsound' : Sound (addMember db groupId contactId).1) :
    Tallied (addMember db groupId contactId).1 ↔ Counts db (.addMember groupId contactId) := by
  rw [addMember_fst] at hsound' ⊢
  split_ifs at hsound' ⊢ with hadds
  · obtain ⟨hgroup, hknown, hmember⟩ := hadds
    have htally : ∀ other, Db.tally ({ db with
        groupMembers := db.groupMembers ++ [GroupMember.mk groupId contactId] }.updateGroup groupId
          AffinityGroup.moreMembers) other =
        db.tally other + if groupId = other ∧ db.Live contactId then 1 else 0 := by
      intro other
      unfold Db.tally Db.updateGroup
      rw [List.countP_append, List.countP_singleton]
      simp only [decide_eq_true_eq]
      rfl
    rw [tallied_update_iff hsound hsound' hdb hgroup (· + 1) rfl, htally]
    · constructor
      · intro h _ _ _
        by_contra hdead
        rw [if_neg fun h => hdead h.2] at h
        omega
      · intro h
        rw [if_pos ⟨rfl, h hgroup hknown hmember⟩]
    · intro other hother
      rw [htally, if_neg fun h => hother h.1.symm, Nat.add_zero]
  · exact iff_of_true hdb fun hgroup hknown hmember => absurd ⟨hgroup, hknown, hmember⟩ hadds

theorem removeMember_tallied_iff (hsound : Sound db) (hdb : Tallied db)
    {groupId contactId : String} (hsound' : Sound (removeMember db groupId contactId).1) :
    Tallied (removeMember db groupId contactId).1 ↔
      Counts db (.removeMember groupId contactId) := by
  rw [removeMember_fst] at hsound' ⊢
  split_ifs at hsound' ⊢ with hremoves
  · obtain ⟨hgroup, hmember⟩ := hremoves
    have htally : ∀ other, db.tally other = Db.tally ({ db with
        groupMembers := db.groupMembers.filter fun other => other ≠ GroupMember.mk groupId contactId
        }.updateGroup groupId AffinityGroup.fewerMembers) other +
        if groupId = other ∧ db.Live contactId then 1 else 0 := by
      intro other
      have hnodup : (db.groupMembers.map id).Nodup := (List.map_id _).symm ▸ hsound.members
      unfold Db.tally Db.updateGroup
      rw [countP_remove hnodup hmember]
      simp only [decide_eq_true_eq]
      rfl
    rw [tallied_update_iff hsound hsound' hdb hgroup (· - 1) rfl]
    · have hown := htally groupId
      dsimp only [Counts]
      rw [membersOf_eq_nil]
      constructor
      · intro h _ _
        refine or_iff_not_imp_left.mpr fun hdead => ?_
        rw [if_neg fun h => hdead h.2] at hown
        omega
      · intro h
        rcases h hgroup hmember with hlive | hnone
        · rw [if_pos ⟨rfl, hlive⟩] at hown
          omega
        · omega
    · intro other hother
      have hsame := htally other
      rw [if_neg fun h => hother h.1.symm] at hsame
      exact hsame.symm
  · exact iff_of_true hdb fun hgroup hmember => absurd ⟨hgroup, hmember⟩ hremoves

/-! ## Merges -/

/-- **A merge moves a row from the secondary contact to the primary one**, which is counted if that
one is not deleted. -/
theorem mergeContacts_tallied_iff (hsound : Sound db) (hdb : Tallied db) {hubId : String}
    {body : MergeContactsBody} {now : Int}
    (hsound' : Sound (mergeContacts db hubId body now).1) :
    Tallied (mergeContacts db hubId body now).1 ↔ Counts db (.mergeContacts hubId body now) := by
  rw [mergeContacts_fst hsound] at hsound' ⊢
  split_ifs at hsound' ⊢ with hmerges
  · -- a row is counted after the merge if the contact that it names then is not deleted
    have htally : ∀ groupId, (merged db hubId body now).tally groupId =
        db.groupMembers.countP fun member => member.groupId = groupId ∧
          if member.contactId = body.secondaryId then
            body.primaryId ≠ body.secondaryId ∧ db.Live body.primaryId
          else db.Live member.contactId := by
      intro groupId
      have hmembers : (merged db hubId body now).groupMembers =
          relinkMembers db.groupMembers body.primaryId body.secondaryId := rfl
      unfold Db.tally
      rw [hmembers]
      unfold relinkMembers update
      rw [List.countP_map]
      refine List.countP_congr fun member _ => ?_
      by_cases hid : member.contactId = body.secondaryId
      · simp [hid, merged_live]
      · simp [hid, merged_live]
    rw [tallied_frame_iff hsound hsound' hdb rfl]
    simp only [htally]
    constructor
    · rintro h - ⟨member, hmember, hid, hgroup⟩
      have hcount := h member.groupId hgroup
      constructor
      · intro hlive
        by_contra hdead
        -- the row was counted, and is not any more
        have hkept := (countP_eq_iff fun other _ hafter => ?_).mp hcount member hmember
          (by simpa [hid] using hlive)
        · simp only [hid, if_true, decide_eq_true_eq] at hkept
          exact hdead hkept.2
        · simp only [decide_eq_true_eq] at hafter ⊢
          refine ⟨hafter.1, ?_⟩
          have hcontact := hafter.2
          split_ifs at hcontact
          · exact absurd hcontact hdead
          · exact hcontact
      · intro hprimary
        by_contra hdead
        -- the row was not counted, and now is
        have hkept := (countP_eq_iff fun other _ hbefore => ?_).mp hcount.symm member hmember
          (by simpa [hid] using hprimary)
        · simp only [hid, decide_eq_true_eq] at hkept
          exact hdead hkept.2
        · simp only [decide_eq_true_eq] at hbefore ⊢
          refine ⟨hbefore.1, ?_⟩
          split_ifs with hsecondary
          · exact hprimary
          · exact hbefore.2
    · intro h groupId hgroup
      refine List.countP_congr fun member hmember => ?_
      simp only [decide_eq_true_eq]
      refine and_congr_right fun hid => ?_
      split_ifs with hsecondary
      · exact hsecondary ▸ (h hmerges ⟨member, hmember, hsecondary, hid ▸ hgroup⟩).symm
      · exact Iff.rfl
  · exact iff_of_true hdb fun h => absurd h hmerges

/-! ## Bulk actions -/

theorem bulkAction_tallied_iff (hsound : Sound db) (hdb : Tallied db) (hubId : String)
    (contactIds : List String) (action : BulkAction) (now : Int)
    (hsound' : Sound (bulkAction db hubId contactIds action now).1) :
    Tallied (bulkAction db hubId contactIds action now).1 ↔
      Counts db (.bulkAction hubId contactIds action now) := by
  cases action with
  | delete =>
    rw [tallied_frame_iff hsound hsound' hdb rfl]
    have htally : ∀ groupId, (bulkAction db hubId contactIds .delete now).1.tally groupId =
        db.groupMembers.countP fun member => member.groupId = groupId ∧
          member.contactId ∉ db.validIds hubId contactIds ∧ db.Live member.contactId := by
      intro groupId
      refine List.countP_congr fun member _ => ?_
      have hlive : (bulkAction db hubId contactIds .delete now).1.Live member.contactId ↔
          member.contactId ∉ db.validIds hubId contactIds ∧ db.Live member.contactId :=
        bulkDeleted_live
      simp [hlive]
    simp only [htally]
    constructor
    · rintro h id hvalid ⟨member, hmember, rfl, hgroup⟩
      have hkept := (countP_eq_iff fun other _ hafter => ?_).mp (h member.groupId hgroup) member
        hmember (by simpa using validIds_live hvalid)
      · exact (of_decide_eq_true hkept).2.1 hvalid
      · simp only [decide_eq_true_eq] at hafter ⊢
        exact ⟨hafter.1, hafter.2.2⟩
    · intro h groupId hgroup
      refine List.countP_congr fun member hmember => ?_
      simp only [decide_eq_true_eq]
      refine and_congr_right fun hid => and_iff_right fun hvalid => ?_
      exact h _ hvalid ⟨member, hmember, rfl, hid ▸ hgroup⟩
  | addTags indexes | removeTags indexes =>
    have hstate := map_setTags Contact.state (fun _ _ => rfl) hubId indexes db.contacts
    exact iff_of_true (tallied_same hsound hsound' hdb rfl rfl fun member _ =>
      live_congr hstate member.contactId) trivial
  | addToGroup groupId =>
    rw [tallied_frame_iff hsound hsound' hdb rfl]
    have htally : ∀ other,
        (bulkAction db hubId contactIds (.addToGroup groupId) now).1.tally other =
          db.tally other + (addedRows db (db.validIds hubId contactIds) groupId).countP
            fun member => member.groupId = other ∧ db.Live member.contactId :=
      fun other => List.countP_append
    simp only [htally, Nat.add_eq_left, List.countP_eq_zero]
    constructor
    · intro h hgroup id hvalid
      by_contra hmember
      refine h groupId hgroup ⟨groupId, id⟩ ?_ (by simpa using validIds_live hvalid)
      exact List.mem_filter.mpr ⟨List.mem_map_of_mem hvalid, decide_eq_true hmember⟩
    · intro h other hother member hmember hcounted
      obtain ⟨hadded, hnot⟩ := List.mem_filter.mp hmember
      obtain ⟨id, hvalid, rfl⟩ := List.mem_map.mp hadded
      obtain ⟨rfl, -⟩ := of_decide_eq_true hcounted
      exact of_decide_eq_true hnot (h hother id hvalid)
  | removeFromGroup groupId =>
    rw [tallied_frame_iff hsound hsound' hdb rfl]
    have htally : ∀ other,
        (bulkAction db hubId contactIds (.removeFromGroup groupId) now).1.tally other =
          db.groupMembers.countP fun member =>
            decide (member.groupId = other ∧ db.Live member.contactId) &&
              decide ¬ ((db.validIds hubId contactIds).contains member.contactId ∧
                member.groupId = groupId) := fun other => List.countP_filter
    simp only [htally]
    constructor
    · intro h hgroup id hvalid hmember
      have hkept := (countP_eq_iff fun other _ hafter => (Bool.and_eq_true_iff.mp hafter).1).mp
        (h groupId hgroup) _ hmember (by simpa using validIds_live hvalid)
      simp [hvalid] at hkept
    · intro h other hother
      refine List.countP_congr fun member hmember => ?_
      rw [Bool.and_eq_true, and_iff_left_iff_imp]
      intro hcounted
      obtain ⟨rfl, -⟩ := of_decide_eq_true hcounted
      refine decide_eq_true fun hremoved => ?_
      obtain ⟨hvalid, rfl⟩ := hremoved
      exact h hother _ (by simpa using hvalid) hmember
  | setRiskLevel => exact iff_of_true hdb trivial

/-! ## Every operation -/

/-- **An operation keeps the counts right exactly if it meets the condition.** -/
theorem call_tallied_iff (hsound : Sound db) (hdb : Tallied db) {op : Op}
    (hdrawn : Unused db op.drawn) : Tallied (call db op) ↔ Counts db op := by
  have hsound' := call_sound hsound hdrawn
  cases op with
  | create id input =>
    exact iff_of_true (tallied_insert hsound hdb hsound' hdrawn.memberContacts) trivial
  | bulkCreate hubId batch =>
    refine iff_of_true ?_ trivial
    unfold call bulkCreate at hsound' ⊢
    dsimp only at hsound' ⊢
    split_ifs at hsound' ⊢
    · exact hdb
    · exact tallied_insert hsound hdb hsound' ((map_batchRows hubId batch).symm ▸
        hdrawn.memberContacts)
  | update id input =>
    refine iff_of_true ?_ trivial
    unfold call at hsound' ⊢
    dsimp only at hsound' ⊢
    rw [updateContact_fst] at hsound' ⊢
    refine tallied_same hsound hsound' hdb rfl rfl fun member _ => live_congr ?_ _
    exact map_updateContact Contact.state db id fun _ => rfl
  | delete id => exact delete_tallied_iff hsound hdb hsound'
  | createRelationship id a hubId input =>
    refine iff_of_true ?_ trivial
    unfold call at hsound' ⊢
    dsimp only at hsound' ⊢
    rw [createRelationship_fst] at hsound' ⊢
    split_ifs at hsound' ⊢
    · exact tallied_same hsound hsound' hdb rfl rfl fun _ _ => Iff.rfl
    · exact hdb
  | deleteRelationship contactId relId =>
    refine iff_of_true ?_ trivial
    unfold call at hsound' ⊢
    dsimp only at hsound' ⊢
    rw [deleteRelationship_fst] at hsound' ⊢
    split_ifs at hsound' ⊢
    · exact tallied_same hsound hsound' hdb rfl rfl fun _ _ => Iff.rfl
    · exact hdb
  | createGroup id hubId members =>
    exact createGroup_tallied_iff hsound hdb hdrawn hubId members hsound'
  | deleteGroup id => exact iff_of_true (deleteGroup_tallied hsound hdb hsound') trivial
  | addMember groupId contactId => exact addMember_tallied_iff hsound hdb hsound'
  | removeMember groupId contactId => exact removeMember_tallied_iff hsound hdb hsound'
  | mergeContacts hubId body now => exact mergeContacts_tallied_iff hsound hdb hsound'
  | bulkAction hubId contactIds action now =>
    exact bulkAction_tallied_iff hsound hdb hubId contactIds action now hsound'

/-- **In a run from the empty directory, every group counts its members in every state exactly if
all the operations do.** -/
theorem memberCounts_iff_along {ops : List Op} (h : Runs.run step {} ops = some db) :
    (∀ before after db, ops = before ++ after → Runs.run step {} before = some db → Tallied db) ↔
      Runs.Along step Counts {} ops := by
  refine Runs.inv_iff_along (I := Sound) (fun db op db' hsound hstep => ?_)
    (fun db op db' hsound hdb hstep => ?_) empty_sound nofun h
  · obtain ⟨hdrawn, rfl⟩ := step_spec hstep
    exact call_sound hsound hdrawn
  · obtain ⟨hdrawn, rfl⟩ := step_spec hstep
    exact call_tallied_iff hsound hdb hdrawn

instance (db : Db) : DecidablePred db.Grouped := fun _ => inferInstanceAs (Decidable (∃ _ ∈ _, _))

instance : DecidableRel Counts := fun db op => by
  -- `cases` would leave proofs in the instance
  induction op using Op.casesOn with
  | bulkAction hubId contactIds action now =>
    induction action using BulkAction.casesOn <;> unfold Counts <;> infer_instance
  | _ => unfold Counts; infer_instance

/-- A member comes, one is merged into another contact, and one goes. -/
def regrouped : List Op :=
  [.create "dot" { hubId := "hub", identifierHashes := ["#4"] }, .addMember "group" "dot",
    .mergeContacts "hub" { primaryId := "ann", secondaryId := "bea" } 0,
    .removeMember "group" "dot", .delete "cai"]

theorem regrouped_tallied :
    ∃ db, Runs.run step {} (directory ++ regrouped) = some db ∧
      ∀ before after db, directory ++ regrouped = before ++ after →
        Runs.run step {} before = some db → Tallied db := by
  have hrun : (Runs.run step {} (directory ++ regrouped)).isSome := by decide +kernel
  obtain ⟨db, hdb⟩ := Option.isSome_iff_exists.mp hrun
  exact ⟨db, hdb, (memberCounts_iff_along hdb).mpr (by decide +kernel)⟩

/-- **A contact that is added to a group with others is not counted.** -/
theorem bulk_uncounted :
    ∃ db ∈ Runs.run step {} (directory ++ [.bulkAction "hub" ["ann"] (.addToGroup "group") 0]),
      ¬ Tallied db := by
  have hrun : ∃ db ∈ Runs.run step {}
      (directory ++ [.bulkAction "hub" ["ann"] (.addToGroup "group") 0]),
      ∃ group ∈ db.affinityGroups, group.memberCount = 2 ∧
        (db.membersOf group.id).dedup.length = 3 := by
    decide +kernel
  obtain ⟨db, hdb, group, hgroup, htwo, hthree⟩ := hrun
  refine ⟨db, hdb, fun h => ?_⟩
  have hcount := h group hgroup
  rw [htwo, hthree] at hcount
  cases hcount

end Llamenos.Worker.Contacts

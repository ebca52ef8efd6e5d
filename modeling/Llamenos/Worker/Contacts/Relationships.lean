import Llamenos.Worker.Contacts.Rows
import Mathlib

/-!
# Relationships between contacts

`createRelationship` joins no contact to itself, nor two that it joins already, in either direction.
A merge sets the side of the secondary contact to the primary one in all relationships of the hub,
and looks at none of them.

Results:
* `merged_proper_iff`: what a merge makes of the relationships.
* `call_proper_iff`: an operation keeps the relationships proper exactly if it meets `Untangled`.
* `proper_iff_along`: **in a run, no contact is joined to itself, and no two are joined twice by one
  type, in any state, exactly if every merge in it meets the condition**.
* `merged_self`: two contacts with a relationship that are merged.
-/

namespace Llamenos.Worker.Contacts

open Llamenos.Lib

variable {db : Db}

/-! ## The property -/

/-- The two relationships join the same two contacts, in either direction, by the same type. -/
def SameTie (r r' : Relationship) : Prop :=
  r.relationshipType = r'.relationshipType ∧ r.joins r'.contactIdA r'.contactIdB = true

/-- No contact is joined to itself, and no two are joined twice by one type. -/
structure Proper (db : Db) : Prop where
  irrefl : ∀ r ∈ db.contactRelationships, r.contactIdA ≠ r.contactIdB
  single : db.contactRelationships.Pairwise fun r r' => ¬ SameTie r r'

/-- One relationship, of the hub, joins the secondary contact to a third one, and the other joins
the primary contact to it, by the same type. -/
def Meet (hubId primaryId secondaryId : String) (r r' : Relationship) : Prop :=
  r.hubId = hubId ∧ r.relationshipType = r'.relationshipType ∧
    (r.contactIdA = secondaryId ∧ r'.joins primaryId r.contactIdB = true ∨
      r.contactIdB = secondaryId ∧ r'.joins primaryId r.contactIdA = true)

/-- What an operation must be, to keep the relationships proper: no relationship of the hub joins
the two contacts of a merge, and no two meet in a third one. -/
def Untangled (db : Db) : Op → Prop
  | .mergeContacts hubId body _ =>
    Merges db hubId body → body.primaryId ≠ body.secondaryId →
      (∀ r ∈ db.contactRelationships, r.hubId = hubId →
        r.joins body.secondaryId body.primaryId = false) ∧
      ∀ r ∈ db.contactRelationships, ∀ r' ∈ db.contactRelationships,
        ¬ Meet hubId body.primaryId body.secondaryId r r'
  | _ => True

instance (hubId primaryId secondaryId : String) : DecidableRel (Meet hubId primaryId secondaryId) :=
  fun _ _ => inferInstanceAs (Decidable (_ ∧ _ ∧ (_ ∧ _ ∨ _ ∧ _)))

theorem joins_iff {r : Relationship} {a b : String} : r.joins a b = true ↔
    (r.contactIdA = a ∧ r.contactIdB = b) ∨ (r.contactIdA = b ∧ r.contactIdB = a) := by
  simp [Relationship.joins]

theorem SameTie.symm {r r' : Relationship} (h : SameTie r r') : SameTie r' r := by
  obtain ⟨htype, hjoins⟩ := h
  refine ⟨htype.symm, joins_iff.mpr ?_⟩
  rcases joins_iff.mp hjoins with ⟨ha, hb⟩ | ⟨ha, hb⟩
  · exact .inl ⟨ha.symm, hb.symm⟩
  · exact .inr ⟨hb.symm, ha.symm⟩

/-- Relationships that are told apart are so either way, and after a merge too. -/
theorem distinct_symm (f : Relationship → Relationship) :
    Std.Symm fun r r' => ¬ SameTie (f r) (f r') := ⟨fun _ _ h hsame => h hsame.symm⟩

/-! ## Merges -/

section Merge

variable {hubId primaryId secondaryId : String} {r r' : Relationship}

/-- A relationship joins a contact to itself that has joined the two that are merged. -/
theorem relink_self_iff (hr : r.contactIdA ≠ r.contactIdB) :
    (r.relink hubId primaryId secondaryId).contactIdA =
        (r.relink hubId primaryId secondaryId).contactIdB ↔
      r.hubId = hubId ∧ r.joins secondaryId primaryId = true := by
  rw [joins_iff]
  unfold Relationship.relink
  split_ifs with hhub
  · simp only [relinked, hhub, true_and]
    grind
  · exact iff_of_false hr fun h => hhub h.1

theorem relink_sameTie_iff (hr : r.contactIdA ≠ r.contactIdB)
    (hr' : r'.contactIdA ≠ r'.contactIdB) (hne : primaryId ≠ secondaryId)
    (hdistinct : ¬ SameTie r r') :
    SameTie (r.relink hubId primaryId secondaryId) (r'.relink hubId primaryId secondaryId) ↔
      Meet hubId primaryId secondaryId r r' ∨ Meet hubId primaryId secondaryId r' r := by
  unfold SameTie Meet at *
  simp only [joins_iff] at *
  unfold Relationship.relink relinked
  by_cases hhub : r.hubId = hubId <;> by_cases hhub' : r'.hubId = hubId <;>
    simp only [hhub, hhub', if_true, if_false] <;> grind

/-- **What a merge makes of the relationships.** -/
theorem merged_proper_iff (hdb : Proper db) {body : MergeContactsBody} {now : Int}
    (hne : body.primaryId ≠ body.secondaryId) :
    Proper (merged db hubId body now) ↔
      (∀ r ∈ db.contactRelationships, r.hubId = hubId →
        r.joins body.secondaryId body.primaryId = false) ∧
      ∀ r ∈ db.contactRelationships, ∀ r' ∈ db.contactRelationships,
        ¬ Meet hubId body.primaryId body.secondaryId r r' := by
  have hrows : (merged db hubId body now).contactRelationships = db.contactRelationships.map
      (Relationship.relink hubId body.primaryId body.secondaryId) := rfl
  -- two that are there do not join the same contacts
  have hdistinct : ∀ r ∈ db.contactRelationships, ∀ r' ∈ db.contactRelationships, r ≠ r' →
      ¬ SameTie r r' := by
    have : Std.Symm fun r r' => ¬ SameTie r r' := distinct_symm id
    exact fun r hr r' hr' => hdb.single.forall hr hr'
  constructor
  · rintro ⟨hirrefl, hsingle⟩
    rw [hrows] at hirrefl hsingle
    refine ⟨fun r hr hhub => ?_, fun r hr r' hr' hmeet => ?_⟩
    · refine Bool.eq_false_iff.mpr fun hjoins => ?_
      exact hirrefl _ (List.mem_map_of_mem hr)
        ((relink_self_iff (hdb.irrefl r hr)).mpr ⟨hhub, hjoins⟩)
    · have hother : r ≠ r' := by
        rintro rfl
        obtain ⟨-, -, hjoins⟩ := hmeet
        simp only [joins_iff] at hjoins
        grind
      rw [List.pairwise_map] at hsingle
      have := distinct_symm (Relationship.relink hubId body.primaryId body.secondaryId)
      refine hsingle.forall hr hr' hother ?_
      exact (relink_sameTie_iff (hdb.irrefl r hr) (hdb.irrefl r' hr') hne
        (hdistinct r hr r' hr' hother)).mpr (.inl hmeet)
  · rintro ⟨hself, hmeet⟩
    refine ⟨?_, ?_⟩
    · rw [hrows, List.forall_mem_map]
      intro r hr hsame
      obtain ⟨hhub, hjoins⟩ := (relink_self_iff (hdb.irrefl r hr)).mp hsame
      rw [hself r hr hhub] at hjoins
      cases hjoins
    · rw [hrows, List.pairwise_map]
      refine hdb.single.imp_of_mem fun {r r'} hr hr' hnot hsame => ?_
      rcases (relink_sameTie_iff (hdb.irrefl r hr) (hdb.irrefl r' hr') hne hnot).mp hsame with h | h
      · exact hmeet r hr r' hr' h
      · exact hmeet r' hr' r hr h

theorem relink_self (r : Relationship) : r.relink hubId primaryId primaryId = r := by
  have hsame : ∀ contactId, relinked primaryId primaryId contactId = contactId := by
    intro contactId
    unfold relinked
    split_ifs with hid
    · exact hid.symm
    · rfl
  unfold Relationship.relink
  rw [hsame, hsame]
  split_ifs <;> rfl

theorem mergeContacts_proper_iff (hsound : Sound db) (hdb : Proper db) {body : MergeContactsBody}
    {now : Int} :
    Proper (mergeContacts db hubId body now).1 ↔ Untangled db (.mergeContacts hubId body now) := by
  rw [mergeContacts_fst hsound]
  split_ifs with hmerges
  · by_cases hsame : body.primaryId = body.secondaryId
    · refine iff_of_true ?_ fun _ hne => absurd hsame hne
      have hrows : (merged db hubId body now).contactRelationships = db.contactRelationships := by
        unfold merged
        rw [hsame]
        exact (List.map_congr_left fun r _ => relink_self r).trans (List.map_id _)
      exact ⟨hrows.symm ▸ hdb.irrefl, hrows.symm ▸ hdb.single⟩
    · rw [merged_proper_iff hdb hsame]
      exact ⟨fun h _ _ => h, fun h => h hmerges hsame⟩
  · exact iff_of_true hdb fun h => absurd h hmerges

end Merge

/-! ## Every operation -/

theorem proper_sublist {db' : Db} (hdb : Proper db)
    (h : db'.contactRelationships.Sublist db.contactRelationships) : Proper db' :=
  ⟨fun r hr => hdb.irrefl r (h.subset hr), hdb.single.sublist h⟩

theorem createRelationship_proper (hdb : Proper db) (id a hubId : String)
    (input : CreateRelationshipBody) : Proper (createRelationship db id a hubId input).1 := by
  rw [createRelationship_fst]
  split_ifs with hcreates
  · obtain ⟨hne, -, -, hnone⟩ := hcreates
    refine ⟨fun r hr => ?_, List.pairwise_append.mpr ⟨hdb.single, List.pairwise_singleton _ _, ?_⟩⟩
    · rcases List.mem_append.mp hr with hold | hnew
      · exact hdb.irrefl r hold
      · rw [List.mem_singleton.mp hnew]
        exact hne
    · intro r hr r' hr' hsame
      rw [List.mem_singleton.mp hr'] at hsame
      exact Bool.false_ne_true ((hnone r hr hsame.1).symm.trans hsame.2)
  · exact hdb

/-- **An operation keeps the relationships proper exactly if it meets the condition.** -/
theorem call_proper_iff (hsound : Sound db) (hdb : Proper db) {op : Op}
    (hdrawn : Unused db op.drawn) : Proper (call db op) ↔ Untangled db op := by
  cases op with
  | mergeContacts hubId body now => exact mergeContacts_proper_iff hsound hdb
  | create id input => exact iff_of_true (proper_sublist hdb (.refl _)) trivial
  | bulkCreate hubId batch =>
    refine iff_of_true (proper_sublist hdb ?_) trivial
    unfold call bulkCreate
    dsimp only
    split_ifs <;> exact .refl _
  | update id input =>
    refine iff_of_true (proper_sublist hdb ?_) trivial
    unfold call
    dsimp only
    rw [updateContact_fst]
    exact .refl _
  | delete id =>
    refine iff_of_true (proper_sublist hdb ?_) trivial
    unfold call
    dsimp only
    rw [delete_fst]
    split_ifs
    · exact List.filter_sublist
    · exact .refl _
  | createRelationship id a hubId input =>
    exact iff_of_true (createRelationship_proper hdb id a hubId input) trivial
  | deleteRelationship contactId relId =>
    refine iff_of_true (proper_sublist hdb ?_) trivial
    unfold call
    dsimp only
    rw [deleteRelationship_fst]
    split_ifs
    · exact List.filter_sublist
    · exact .refl _
  | createGroup id hubId members =>
    refine iff_of_true (proper_sublist hdb ?_) trivial
    unfold call
    dsimp only
    rw [createGroup_fst hsound (hdrawn.members List.mem_cons_self)]
    split_ifs <;> exact .refl _
  | deleteGroup id =>
    refine iff_of_true (proper_sublist hdb ?_) trivial
    unfold call
    dsimp only
    rw [deleteGroup_fst]
    split_ifs <;> exact .refl _
  | addMember groupId contactId =>
    refine iff_of_true (proper_sublist hdb ?_) trivial
    unfold call
    dsimp only
    rw [addMember_fst]
    split_ifs <;> exact .refl _
  | removeMember groupId contactId =>
    refine iff_of_true (proper_sublist hdb ?_) trivial
    unfold call
    dsimp only
    rw [removeMember_fst]
    split_ifs <;> exact .refl _
  | bulkAction hubId contactIds action now =>
    refine iff_of_true (proper_sublist hdb ?_) trivial
    cases action <;> exact .refl _

/-- **In a run from the empty directory, the relationships are proper in every state exactly if
every merge is untangled.** -/
theorem proper_iff_along {ops : List Op} (h : Runs.run step {} ops = some db) :
    (∀ before after db, ops = before ++ after → Runs.run step {} before = some db → Proper db) ↔
      Runs.Along step Untangled {} ops := by
  refine Runs.inv_iff_along (I := Sound) (fun db op db' hsound hstep => ?_)
    (fun db op db' hsound hdb hstep => ?_) empty_sound ⟨nofun, .nil⟩ h
  · obtain ⟨hdrawn, rfl⟩ := step_spec hstep
    exact call_sound hsound hdrawn
  · obtain ⟨hdrawn, rfl⟩ := step_spec hstep
    exact call_proper_iff hsound hdb hdrawn

instance : DecidableRel Untangled := fun db op => by
  induction op using Op.casesOn <;> unfold Untangled <;> infer_instance

/-- Three contacts of a hub, two of them with relationships to the third one. -/
def family : List Op :=
  [.create "ann" { hubId := "hub", identifierHashes := ["#1"] },
    .create "bea" { hubId := "hub", identifierHashes := ["#2"] },
    .create "cai" { hubId := "hub", identifierHashes := ["#3"] },
    .createRelationship "r1" "ann" "hub" { contactIdB := "cai", relationshipType := "family" },
    .createRelationship "r2" "cai" "hub" { contactIdB := "bea", relationshipType := "witness" },
    .mergeContacts "hub" { primaryId := "ann", secondaryId := "bea" } 0]

theorem family_proper :
    ∃ db, Runs.run step {} family = some db ∧
      ∀ before after db, family = before ++ after →
        Runs.run step {} before = some db → Proper db := by
  have hrun : (Runs.run step {} family).isSome := by decide +kernel
  obtain ⟨db, hdb⟩ := Option.isSome_iff_exists.mp hrun
  exact ⟨db, hdb, (proper_iff_along hdb).mpr (by decide +kernel)⟩

/-- **Two contacts that are joined are merged**, and the one is joined to itself. -/
theorem merged_self :
    ∃ db ∈ Runs.run step {}
      (family ++ [.mergeContacts "hub" { primaryId := "ann", secondaryId := "cai" } 1]),
      ¬ Proper db := by
  have hrun : ∃ db ∈ Runs.run step {}
      (family ++ [.mergeContacts "hub" { primaryId := "ann", secondaryId := "cai" } 1]),
      ∃ r ∈ db.contactRelationships, r.contactIdA = r.contactIdB := by
    decide +kernel
  obtain ⟨db, hdb, r, hr, hself⟩ := hrun
  exact ⟨db, hdb, fun h => h.irrefl r hr hself⟩

end Llamenos.Worker.Contacts

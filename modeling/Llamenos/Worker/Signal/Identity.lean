import Llamenos.Lib.Histories
import Llamenos.Lib.Runs
import Llamenos.Lib.Tables

/-!
# The identities of Signal contacts

`recordIdentity` keeps the fingerprint of a contact's identity key: it selects the contact's row,
and then, in a statement of its own, inserts one, stores the changed fingerprint, or stores when the
contact was last seen. `setTrustLevel` is one statement. The calls overlap as they like; every
interleaving of their statements is a run.

A fingerprint is reported once the call that was given it has returned.

Results:
* `rowOf_step`: what a step does to a contact's row.
* `sound_step`: the stored fingerprints are reported ones, and so are those that the calls have
  read.
* `verified_step`: a level of verified refers to the stored fingerprint.
* `distrusts_step`: a step after which a contact with two fingerprints is not distrusted.
* `identity_trust_iff`: **the two laws hold all along a run** exactly if no call that has found a
  row without a fingerprint returns with a second one while the contact is trusted.
-/

namespace Llamenos.Worker.Signal.Identity

open Llamenos.Lib

inductive TrustLevel where
  | untrusted
  | trustedUnverified
  | trustedVerified
  deriving DecidableEq

inductive SignalTrustMode where
  | auto
  | tofu
  | manual
  deriving DecidableEq

/-- The hub, and the contact's UUID. -/
abbrev Contact := String × String

structure IdentityRecord where
  id : String
  hubId : String
  number : String
  uuid : String
  fingerprint : Option String
  trustLevel : TrustLevel
  verifiedBy : Option String
  verifiedAt : Option Int
  firstSeenAt : Int
  lastSeenAt : Int
  keyChangeCount : Nat

def IdentityRecord.contact (record : IdentityRecord) : Contact := (record.hubId, record.uuid)

/-- The stored fingerprint; a row without one has an empty one. -/
def IdentityRecord.stored (record : IdentityRecord) : String := record.fingerprint.getD ""

/-- The parameters of `recordIdentity`. -/
structure Params where
  hubId : String
  number : String
  uuid : String
  fingerprint : Option String
  trustMode : Option SignalTrustMode

def Params.contact (params : Params) : Contact := (params.hubId, params.uuid)

def Params.reported (params : Params) : String := params.fingerprint.getD ""

def Params.mode (params : Params) : SignalTrustMode := params.trustMode.getD .tofu

def newIdentity (params : Params) (now : Int) (id : String) : IdentityRecord where
  id := id
  hubId := params.hubId
  number := params.number
  uuid := params.uuid
  fingerprint := some params.reported
  trustLevel := if params.mode = .manual then .untrusted else .trustedUnverified
  verifiedBy := none
  verifiedAt := none
  firstSeenAt := now
  lastSeenAt := now
  keyChangeCount := 0

/-- `fingerprint && record.fingerprint && fingerprint !== record.fingerprint`. -/
def KeyChanged (params : Params) (record : IdentityRecord) : Prop :=
  params.reported ≠ "" ∧ record.stored ≠ "" ∧ params.reported ≠ record.stored

instance (params : Params) (record : IdentityRecord) : Decidable (KeyChanged params record) :=
  inferInstanceAs (Decidable (_ ∧ _))

/-- The update of `recordIdentity`, by what it has read. -/
def identityUpdate (params : Params) (now : Int) (record row : IdentityRecord) : IdentityRecord :=
  if KeyChanged params record then
    { row with
      fingerprint := some params.reported
      trustLevel := if params.mode = .auto then .trustedUnverified else .untrusted
      lastSeenAt := now
      keyChangeCount := record.keyChangeCount + 1
      verifiedBy := none
      verifiedAt := none }
  else { row with lastSeenAt := now, number := params.number }

/-- The update of `setTrustLevel`. -/
def trustUpdate (level : TrustLevel) (verifierPubkey : Option String) (now : Int)
    (row : IdentityRecord) : IdentityRecord :=
  match verifierPubkey with
  | some pubkey =>
    if level = .trustedVerified ∧ pubkey ≠ "" then
      { row with trustLevel := level, verifiedBy := some pubkey, verifiedAt := some now }
    else { row with trustLevel := level }
  | none => { row with trustLevel := level }

/-- A call of `recordIdentity`, by how far it has come. -/
inductive Call where
  | selected (params : Params) (now : Int) (existing : Option IdentityRecord)
  | returned (isNew keyChanged : Bool)
  | failed

structure State where
  identities : List IdentityRecord
  calls : Nat → Option Call

inductive Event where
  /-- It begins, and selects the row. -/
  | recordIdentity (c : Nat) (params : Params) (now : Int)
  /-- It inserts or updates; a new row gets the random id. -/
  | writeIdentity (c : Nat) (id : String)
  | setTrustLevel (contact : Contact) (level : TrustLevel) (verifierPubkey : Option String)
      (now : Int)

def start : State := ⟨[], fun _ => none⟩

/-- The contact's row. -/
def State.rowOf (s : State) : Contact → Option IdentityRecord :=
  Tables.lookup IdentityRecord.contact s.identities

/-- Neither the primary key nor the unique index has the new row's key. -/
def State.Admits (s : State) (new : IdentityRecord) : Prop :=
  ∀ row ∈ s.identities, row.id ≠ new.id ∧ row.contact ≠ new.contact

instance (s : State) (new : IdentityRecord) : Decidable (s.Admits new) :=
  inferInstanceAs (Decidable (∀ row ∈ _, _ ∧ _))

def State.goOn (s : State) (c : Nat) (call : Call) (identities : List IdentityRecord) : State :=
  ⟨identities, Function.update s.calls c (some call)⟩

def step (s : State) : Event → Option State
  | .recordIdentity c params now =>
    match s.calls c with
    | none => some (s.goOn c (.selected params now (s.rowOf params.contact)) s.identities)
    | some _ => none
  | .writeIdentity c id =>
    match s.calls c with
    | some (.selected params now none) =>
      let new := newIdentity params now id
      -- the unique index refuses the row where another call has been first
      if s.Admits new then some (s.goOn c (.returned true false) (s.identities ++ [new]))
      else some (s.goOn c .failed s.identities)
    | some (.selected params now (some record)) =>
      some (s.goOn c (.returned false (KeyChanged params record))
        (s.identities.map fun row =>
          if row.id = record.id then identityUpdate params now record row else row))
    | _ => none
  | .setTrustLevel contact level verifierPubkey now =>
    some { s with identities := s.identities.map fun row =>
      if row.contact = contact then trustUpdate level verifierPubkey now row else row }

/-- What the calls that return tell: a contact's fingerprint, or a contact's new level and the
fingerprint stored with it. -/
inductive Out where
  | reported (contact : Contact) (fingerprint : String)
  | trusted (contact : Contact) (level : TrustLevel) (fingerprint : String)
  deriving DecidableEq

def out (s : State) : Event → List Out
  | .recordIdentity _ _ _ => []
  | .writeIdentity c id =>
    match s.calls c with
    | some (.selected params now none) =>
      if s.Admits (newIdentity params now id) then [.reported params.contact params.reported]
      else []
    | some (.selected params _ (some _)) => [.reported params.contact params.reported]
    | _ => []
  | .setTrustLevel contact level _ _ =>
    (s.rowOf contact).toList.map fun row => .trusted contact level row.stored

/-- A state, and all that has been told. -/
abbrev Recorded := State × List Out

def recorded : Recorded → Event → Option Recorded := Runs.recording step out

/-! ## The two laws -/

/-- `setTrustLevel` has found the contact. -/
def Out.Trusts (contact : Contact) : Out → Prop
  | .reported _ _ => False
  | .trusted other _ _ => other = contact

/-- The fingerprint has not been reported, but another one has. -/
def Second (told : List Out) (contact : Contact) (fingerprint : String) : Prop :=
  fingerprint ≠ "" ∧ .reported contact fingerprint ∉ told ∧
    ∃ other, other ≠ "" ∧ .reported contact other ∈ told

/-- Two different fingerprints have been reported, and `setTrustLevel` has not been called since. -/
def Unacknowledged (told : List Out) (contact : Contact) : Prop :=
  Histories.Since (fun before w => ∃ fingerprint, w = .reported contact fingerprint ∧
    Second before contact fingerprint) (Out.Trusts contact) told

/-- A contact with two unacknowledged fingerprints is distrusted. -/
def Distrusts (p : Recorded) : Prop :=
  ∀ contact, Unacknowledged p.2 contact →
    (p.1.rowOf contact).map IdentityRecord.trustLevel = some .untrusted

/-- The last to set a verified contact's level has set it to that, with the fingerprint stored that
is stored now. -/
def VerifiedIsStored (p : Recorded) : Prop :=
  ∀ contact row, p.1.rowOf contact = some row → row.trustLevel = .trustedVerified →
    Histories.Since (fun _ w => w = .trusted contact .trustedVerified row.stored)
      (Out.Trusts contact) p.2

variable {s s' : State} {p q : Recorded} {e : Event} {contact : Contact}

/-! ## What a step does -/

@[simp] theorem identityUpdate_id (params : Params) (now : Int) (record row : IdentityRecord) :
    (identityUpdate params now record row).id = row.id := by
  unfold identityUpdate
  split_ifs <;> rfl

@[simp] theorem identityUpdate_contact (params : Params) (now : Int)
    (record row : IdentityRecord) :
    (identityUpdate params now record row).contact = row.contact := by
  unfold identityUpdate
  split_ifs <;> rfl

theorem identityUpdate_stored (params : Params) (now : Int) (record row : IdentityRecord) :
    (identityUpdate params now record row).stored =
      if KeyChanged params record then params.reported else row.stored := by
  unfold identityUpdate
  split_ifs <;> rfl

@[simp] theorem trustUpdate_id (level : TrustLevel) (verifier : Option String) (now : Int)
    (row : IdentityRecord) : (trustUpdate level verifier now row).id = row.id := by
  unfold trustUpdate
  split
  · split_ifs <;> rfl
  · rfl

@[simp] theorem trustUpdate_contact (level : TrustLevel) (verifier : Option String) (now : Int)
    (row : IdentityRecord) : (trustUpdate level verifier now row).contact = row.contact := by
  unfold trustUpdate
  split
  · split_ifs <;> rfl
  · rfl

@[simp] theorem trustUpdate_stored (level : TrustLevel) (verifier : Option String) (now : Int)
    (row : IdentityRecord) : (trustUpdate level verifier now row).stored = row.stored := by
  unfold trustUpdate
  split
  · split_ifs <;> rfl
  · rfl

@[simp] theorem trustUpdate_trustLevel (level : TrustLevel) (verifier : Option String) (now : Int)
    (row : IdentityRecord) : (trustUpdate level verifier now row).trustLevel = level := by
  unfold trustUpdate
  split
  · split_ifs <;> rfl
  · rfl

/-- A row is known by its id, and by its contact. -/
structure Keyed (s : State) : Prop where
  ids : (s.identities.map IdentityRecord.id).Nodup
  contacts : (s.identities.map IdentityRecord.contact).Nodup
variable {row : IdentityRecord}

theorem Keyed.rowOf_eq (hs : Keyed s) :
    s.rowOf contact = some row ↔ row ∈ s.identities ∧ row.contact = contact :=
  Tables.lookup_eq_some_iff hs.contacts

theorem keyed_map (hs : Keyed s) {set : IdentityRecord → IdentityRecord}
    (hid : ∀ row, (set row).id = row.id) (hcontact : ∀ row, (set row).contact = row.contact)
    (h : s'.identities = s.identities.map set) : Keyed s' :=
  ⟨h ▸ Tables.nodup_map hs.ids hid, h ▸ Tables.nodup_map hs.contacts hcontact⟩

theorem same_rows (hs : Keyed s) (h : s'.identities = s.identities) :
    Keyed s' ∧ s'.rowOf = s.rowOf :=
  ⟨⟨h ▸ hs.ids, h ▸ hs.contacts⟩, congrArg (Tables.lookup IdentityRecord.contact) h⟩

/-- A statement that sets the row of one contact's id. -/
theorem rowOf_setId (hs : Keyed s) {set : IdentityRecord → IdentityRecord}
    (hcontact : ∀ row, (set row).contact = row.contact)
    (hrow : s.rowOf contact = some row) (h : s'.identities = s.identities.map fun other =>
      if other.id = row.id then set other else other) :
    s'.rowOf = Function.update s.rowOf contact (some (set row)) := by
  obtain ⟨hmem, hk⟩ := hs.rowOf_eq.mp hrow
  have hsame : s'.identities = s.identities.map fun other =>
      if other.contact = contact then set other else other := by
    rw [h]
    refine List.map_congr_left fun other hother => if_congr ⟨fun hid => ?_, fun hcon => ?_⟩ rfl rfl
    · rw [List.inj_on_of_nodup_map hs.ids hother hmem hid, hk]
    · rw [List.inj_on_of_nodup_map hs.contacts hother hmem (hcon.trans hk.symm)]
  rw [State.rowOf, hsame, Tables.lookup_set hcontact]
  exact congrArg _ (congrArg _ hrow)

/-- The rows have keys, what is stored has been reported, whose fingerprint is reported has a row,
and so has what a call has read. -/
structure Sound (p : Recorded) : Prop where
  keyed : Keyed p.1
  stored : ∀ contact row, p.1.rowOf contact = some row → row.stored ≠ "" →
    .reported contact row.stored ∈ p.2
  known : ∀ contact fingerprint, .reported contact fingerprint ∈ p.2 →
    ∃ row, p.1.rowOf contact = some row
  calls : ∀ c params now record, p.1.calls c = some (.selected params now (some record)) →
    (∃ row, p.1.rowOf params.contact = some row ∧ row.id = record.id) ∧
      (record.stored ≠ "" → .reported params.contact record.stored ∈ p.2)

theorem sound_start : Sound (start, []) where
  keyed := ⟨List.nodup_nil, List.nodup_nil⟩
  stored contact row h := by cases h
  known contact fingerprint h := by cases h
  calls c params now record h := by cases h

/-- What a step does: it leaves the rows as they are and tells nothing, or it sets one contact's row
and tells of that contact. -/
inductive Moves (p q : Recorded) : Event → Prop where
  | quiet (e : Event) (hrows : q.1.rowOf = p.1.rowOf) (htold : q.2 = p.2) : Moves p q e
  | inserted (c : Nat) (id : String) (params : Params) (now : Int)
      (hnone : p.1.rowOf params.contact = none)
      (hrows : q.1.rowOf =
        Function.update p.1.rowOf params.contact (some (newIdentity params now id)))
      (htold : q.2 = p.2 ++ [.reported params.contact params.reported]) :
      Moves p q (.writeIdentity c id)
  | updated (c : Nat) (id : String) (params : Params) (now : Int) (record row : IdentityRecord)
      (hcall : p.1.calls c = some (.selected params now (some record)))
      (hrow : p.1.rowOf params.contact = some row)
      (hrows : q.1.rowOf = Function.update p.1.rowOf params.contact
        (some (identityUpdate params now record row)))
      (htold : q.2 = p.2 ++ [.reported params.contact params.reported]) :
      Moves p q (.writeIdentity c id)
  | trusted (contact : Contact) (level : TrustLevel) (verifier : Option String) (now : Int)
      (row : IdentityRecord) (hrow : p.1.rowOf contact = some row)
      (hrows : q.1.rowOf =
        Function.update p.1.rowOf contact (some (trustUpdate level verifier now row)))
      (htold : q.2 = p.2 ++ [.trusted contact level row.stored]) :
      Moves p q (.setTrustLevel contact level verifier now)

theorem insert_moves {new : IdentityRecord} (hs : Keyed s) (hadmits : s.Admits new)
    (h : s'.identities = s.identities ++ [new]) :
    Keyed s' ∧ s.rowOf new.contact = none ∧
      s'.rowOf = Function.update s.rowOf new.contact (some new) := by
  have hid : Tables.lookup IdentityRecord.id s.identities new.id = none :=
    Tables.lookup_eq_none_iff.mpr fun row hrow => (hadmits row hrow).1
  have hcontact : Tables.lookup IdentityRecord.contact s.identities new.contact = none :=
    Tables.lookup_eq_none_iff.mpr fun row hrow => (hadmits row hrow).2
  refine ⟨⟨h ▸ Tables.nodup_concat hs.ids hid, h ▸ Tables.nodup_concat hs.contacts hcontact⟩,
    hcontact, ?_⟩
  rw [State.rowOf, h]
  exact Tables.lookup_concat hcontact

/-- **What a step does to the rows.** -/
theorem rowOf_step (hp : Sound p) (h : recorded p e = some q) : Keyed q.1 ∧ Moves p q e := by
  obtain ⟨hstep, htold⟩ := Runs.recording_eq_some.mp h
  cases e with
  | recordIdentity c params now =>
    simp only [step] at hstep
    split at hstep
    · have hrows : q.1.identities = p.1.identities := by
        rw [← Option.some.inj hstep]
        rfl
      obtain ⟨hkeyed, hsame⟩ := same_rows hp.keyed hrows
      exact ⟨hkeyed, .quiet _ hsame (by simpa [out] using htold)⟩
    · cases hstep
  | writeIdentity c id =>
    simp only [step] at hstep
    split at hstep
    next params now hc =>
      split_ifs at hstep with hadmits
      · have hrows : q.1.identities = p.1.identities ++ [newIdentity params now id] := by
          rw [← Option.some.inj hstep]; rfl
        obtain ⟨hkeyed, hnone, hrowOf⟩ := insert_moves hp.keyed hadmits hrows
        refine ⟨hkeyed, .inserted c id params now hnone hrowOf ?_⟩
        rw [htold, out, hc]
        simp [hadmits]
      · have hrows : q.1.identities = p.1.identities := by
          rw [← Option.some.inj hstep]
          rfl
        obtain ⟨hkeyed, hsame⟩ := same_rows hp.keyed hrows
        refine ⟨hkeyed, .quiet _ hsame ?_⟩
        rw [htold, out, hc]
        simp [hadmits]
    next params now record hc =>
      obtain ⟨⟨row, hrow, hid⟩, -⟩ := hp.calls c params now record hc
      have hrows : q.1.identities = p.1.identities.map fun row =>
          if row.id = record.id then identityUpdate params now record row else row := by
        rw [← Option.some.inj hstep]; rfl
      rw [← hid] at hrows
      have hrowOf := rowOf_setId hp.keyed (identityUpdate_contact params now record) hrow hrows
      refine ⟨keyed_map hp.keyed (fun row => ?_) (fun row => ?_) hrows, ?_⟩
      · split_ifs <;> simp
      · split_ifs <;> simp
      · refine .updated c id params now record row hc hrow hrowOf ?_
        rw [htold, out, hc]
    next => cases hstep
  | setTrustLevel contact level verifier now =>
    have hrows : q.1.identities = p.1.identities.map fun row =>
        if row.contact = contact then trustUpdate level verifier now row else row := by
      rw [← Option.some.inj hstep]
    have hrowOf : q.1.rowOf = Function.update p.1.rowOf contact
        ((p.1.rowOf contact).map (trustUpdate level verifier now)) := by
      rw [State.rowOf, hrows]
      exact Tables.lookup_set (trustUpdate_contact level verifier now)
    refine ⟨keyed_map hp.keyed (fun row => ?_) (fun row => ?_) hrows, ?_⟩
    · split_ifs <;> simp
    · split_ifs <;> simp
    · rw [out] at htold
      cases hrow : p.1.rowOf contact with
      | none =>
        rw [hrow] at htold hrowOf
        refine .quiet _ ?_ (by simpa using htold)
        rw [hrowOf, Option.map_none, ← hrow, Function.update_eq_self]
      | some row =>
        rw [hrow] at htold hrowOf
        exact .trusted contact level verifier now row hrow hrowOf htold

/-- What a call has read, it has just read, or had before. -/
theorem selected_step (h : step s e = some s') {c : Nat} {params : Params} {now : Int}
    {record : IdentityRecord} (hc : s'.calls c = some (.selected params now (some record))) :
    s.calls c = some (.selected params now (some record)) ∨
      s.rowOf params.contact = some record := by
  cases e with
  | recordIdentity d params' now' =>
    simp only [step] at h
    split at h
    · obtain rfl := Option.some.inj h
      rcases Runs.update_eq_some hc with ⟨-, hnew⟩ | ⟨-, hold⟩
      · obtain ⟨rfl, -, hread⟩ := Call.selected.inj (Option.some.inj hnew)
        exact .inr hread
      · exact .inl hold
    · cases h
  | writeIdentity d id =>
    simp only [step] at h
    split at h
    · split_ifs at h
      all_goals
        obtain rfl := Option.some.inj h
        rcases Runs.update_eq_some hc with ⟨-, hnew⟩ | ⟨-, hold⟩
        · cases hnew
        · exact .inl hold
    · obtain rfl := Option.some.inj h
      rcases Runs.update_eq_some hc with ⟨-, hnew⟩ | ⟨-, hold⟩
      · cases hnew
      · exact .inl hold
    · cases h
  | setTrustLevel contact level verifier now' =>
    obtain rfl := Option.some.inj h
    exact .inl hc

/-- A row stays, under its id. -/
theorem Moves.persists (h : Moves p q e)
    (hrow : p.1.rowOf contact = some row) :
    ∃ row', q.1.rowOf contact = some row' ∧ row'.id = row.id := by
  cases h with
  | quiet e hrows htold => exact ⟨row, hrows ▸ hrow, rfl⟩
  | inserted c id params now hnone hrows htold =>
    have hne : contact ≠ params.contact := by
      rintro rfl
      rw [hrow] at hnone
      cases hnone
    exact ⟨row, by rw [hrows, Function.update_of_ne hne, hrow], rfl⟩
  | updated c id params now record row' hcall hrow' hrows htold =>
    rw [hrows]
    by_cases hk : contact = params.contact
    · rw [hk, hrow', Option.some.injEq] at hrow
      rw [hk, Function.update_self]
      exact ⟨_, rfl, by rw [identityUpdate_id, hrow]⟩
    · exact ⟨row, by rw [Function.update_of_ne hk, hrow], rfl⟩
  | trusted k level verifier now row' hrow' hrows htold =>
    rw [hrows]
    by_cases hk : contact = k
    · rw [hk, hrow', Option.some.injEq] at hrow
      rw [hk, Function.update_self]
      exact ⟨_, rfl, by rw [trustUpdate_id, hrow]⟩
    · exact ⟨row, by rw [Function.update_of_ne hk, hrow], rfl⟩

theorem Moves.stored (h : Moves p q e)
    (hp : ∀ contact row, p.1.rowOf contact = some row → row.stored ≠ "" →
      .reported contact row.stored ∈ p.2)
    (hrow : q.1.rowOf contact = some row) (hstored : row.stored ≠ "") :
    .reported contact row.stored ∈ q.2 := by
  cases h with
  | quiet e hrows htold => exact htold ▸ hp contact row (hrows ▸ hrow) hstored
  | inserted c id params now hnone hrows htold =>
    rw [hrows] at hrow
    rw [htold, List.mem_append, List.mem_singleton]
    rcases Runs.update_eq_some hrow with ⟨rfl, hnew⟩ | ⟨-, hold⟩
    · obtain rfl := Option.some.inj hnew
      exact .inr rfl
    · exact .inl (hp contact row hold hstored)
  | updated c id params now record row' hcall hrow' hrows htold =>
    rw [hrows] at hrow
    rw [htold, List.mem_append, List.mem_singleton]
    rcases Runs.update_eq_some hrow with ⟨rfl, hnew⟩ | ⟨-, hold⟩
    · obtain rfl := Option.some.inj hnew
      rw [identityUpdate_stored] at hstored ⊢
      split_ifs at hstored ⊢
      · exact .inr rfl
      · exact .inl (hp _ row' hrow' hstored)
    · exact .inl (hp contact row hold hstored)
  | trusted k level verifier now row' hrow' hrows htold =>
    rw [hrows] at hrow
    rw [htold, List.mem_append]
    refine .inl ?_
    rcases Runs.update_eq_some hrow with ⟨rfl, hnew⟩ | ⟨-, hold⟩
    · obtain rfl := Option.some.inj hnew
      rw [trustUpdate_stored] at hstored ⊢
      exact hp _ row' hrow' hstored
    · exact hp contact row hold hstored

theorem Moves.known (h : Moves p q e) {fingerprint : String}
    (hnew : .reported contact fingerprint ∈ q.2) :
    .reported contact fingerprint ∈ p.2 ∨ ∃ row, q.1.rowOf contact = some row := by
  cases h with
  | quiet e hrows htold => exact .inl (htold ▸ hnew)
  | inserted c id params now hnone hrows htold =>
    rw [htold, List.mem_append, List.mem_singleton] at hnew
    refine hnew.imp_right fun heq => ?_
    obtain ⟨rfl, -⟩ := Out.reported.inj heq
    exact ⟨_, by rw [hrows, Function.update_self]⟩
  | updated c id params now record row hcall hrow hrows htold =>
    rw [htold, List.mem_append, List.mem_singleton] at hnew
    refine hnew.imp_right fun heq => ?_
    obtain ⟨rfl, -⟩ := Out.reported.inj heq
    exact ⟨_, by rw [hrows, Function.update_self]⟩
  | trusted k level verifier now row hrow hrows htold =>
    rw [htold, List.mem_append, List.mem_singleton] at hnew
    exact hnew.imp_right fun heq => by cases heq

theorem sound_step (hp : Sound p) (h : recorded p e = some q) : Sound q := by
  obtain ⟨hkeyed, hmoves⟩ := rowOf_step hp h
  obtain ⟨hstep, htold⟩ := Runs.recording_eq_some.mp h
  have hgrows : ∀ w ∈ p.2, w ∈ q.2 := fun w hw => htold ▸ List.mem_append_left _ hw
  refine ⟨hkeyed, fun contact row => hmoves.stored hp.stored, fun contact fingerprint hin => ?_,
    fun c params now record hc => ?_⟩
  · rcases hmoves.known hin with hold | hrow
    · obtain ⟨row, hrow⟩ := hp.known contact fingerprint hold
      obtain ⟨row', hrow', -⟩ := hmoves.persists hrow
      exact ⟨row', hrow'⟩
    · exact hrow
  · have hread : (∃ row, p.1.rowOf params.contact = some row ∧ row.id = record.id) ∧
        (record.stored ≠ "" → .reported params.contact record.stored ∈ p.2) := by
      rcases selected_step hstep hc with hold | hnew
      · exact hp.calls c params now record hold
      · exact ⟨⟨record, hnew, rfl⟩, hp.stored params.contact record hnew⟩
    obtain ⟨⟨row, hrow, hid⟩, hreported⟩ := hread
    obtain ⟨row', hrow', hid'⟩ := hmoves.persists hrow
    exact ⟨⟨row', hrow', hid'.trans hid⟩, fun hne => hgrows _ (hreported hne)⟩

/-! ## Verified fingerprints -/

theorem trusts_reported {k : Contact} {fingerprint : String} :
    ¬ Out.Trusts contact (.reported k fingerprint) := id

theorem trusts_trusted {k : Contact} {level : TrustLevel} {fingerprint : String} :
    Out.Trusts contact (.trusted k level fingerprint) ↔ k = contact := Iff.rfl

/-- **Where a row is verified, the last `setTrustLevel` has verified what is stored.** -/
theorem verified_step (hp : Sound p) (h : recorded p e = some q) (hv : VerifiedIsStored p) :
    VerifiedIsStored q := by
  obtain ⟨-, hmoves⟩ := rowOf_step hp h
  intro contact row hrow hlevel
  cases hmoves with
  | quiet e hrows htold =>
    rw [htold]
    exact hv contact row (hrows ▸ hrow) hlevel
  | inserted c id params now hnone hrows htold =>
    rw [hrows] at hrow
    rw [htold, Histories.since_concat]
    rcases Runs.update_eq_some hrow with ⟨rfl, hnew⟩ | ⟨-, hold⟩
    · obtain rfl := Option.some.inj hnew
      simp only [newIdentity] at hlevel
      split_ifs at hlevel
    · exact .inr ⟨trusts_reported, hv contact row hold hlevel⟩
  | updated c id params now record row' hcall hrow' hrows htold =>
    rw [hrows] at hrow
    rw [htold, Histories.since_concat]
    refine .inr ⟨trusts_reported, ?_⟩
    rcases Runs.update_eq_some hrow with ⟨rfl, hnew⟩ | ⟨-, hold⟩
    · obtain rfl := Option.some.inj hnew
      by_cases hchanged : KeyChanged params record
      · -- a changed fingerprint is not stored as verified
        rw [identityUpdate, if_pos hchanged] at hlevel
        simp only at hlevel
        split_ifs at hlevel
      · rw [identityUpdate, if_neg hchanged] at hlevel ⊢
        exact hv _ row' hrow' hlevel
    · exact hv contact row hold hlevel
  | trusted k level verifier now row' hrow' hrows htold =>
    rw [hrows] at hrow
    rw [htold, Histories.since_concat]
    rcases Runs.update_eq_some hrow with ⟨rfl, hnew⟩ | ⟨hne, hold⟩
    · obtain rfl := Option.some.inj hnew
      rw [trustUpdate_trustLevel] at hlevel
      rw [hlevel, trustUpdate_stored]
      exact .inl rfl
    · exact .inr ⟨Ne.symm hne, hv contact row hold hlevel⟩

/-! ## Contacts with two fingerprints -/

/-- The call is not in the mode that trusts whatever is reported. -/
def Event.NotAuto : Event → Prop
  | .recordIdentity _ params _ => params.mode ≠ .auto
  | _ => True

instance : ∀ e : Event, Decidable e.NotAuto
  | .recordIdentity _ params _ => inferInstanceAs (Decidable (params.mode ≠ .auto))
  | .writeIdentity _ _ | .setTrustLevel _ _ _ _ => isTrue trivial

/-- So is none of those that have read. -/
def NoAuto (s : State) : Prop :=
  ∀ c params now existing, s.calls c = some (.selected params now existing) → params.mode ≠ .auto

/-- A call that has found a row without a fingerprint returns with a second one only where the
contact is distrusted already. -/
def SecondNoticed (p : Recorded) : Event → Prop
  | .writeIdentity c _ => ∀ params now record,
      p.1.calls c = some (.selected params now (some record)) → record.stored = "" →
        Second p.2 params.contact params.reported →
          (p.1.rowOf params.contact).map IdentityRecord.trustLevel = some .untrusted
  | _ => True

instance (told : List Out) (contact : Contact) (fingerprint : String) :
    Decidable (Second told contact fingerprint) :=
  decidable_of_iff (fingerprint ≠ "" ∧ .reported contact fingerprint ∉ told ∧
      ∃ w ∈ told, ∃ other ∈ (match w with
        | .reported k f => if k = contact then some f else none
        | .trusted _ _ _ => none), other ≠ "") <| by
    refine and_congr_right fun _ => and_congr_right fun _ => ⟨?_, ?_⟩
    · rintro ⟨w, hw, other, hother, hne⟩
      cases w with
      | reported k f =>
        rw [Option.mem_ite_none_right, Option.mem_some_iff] at hother
        obtain ⟨rfl, rfl⟩ := hother
        exact ⟨f, hne, hw⟩
      | trusted k level f => cases hother
    · rintro ⟨other, hne, hw⟩
      exact ⟨_, hw, other, by simp, hne⟩

instance (p : Recorded) : ∀ e, Decidable (SecondNoticed p e)
  | .recordIdentity _ _ _ => isTrue trivial
  | .setTrustLevel _ _ _ _ => isTrue trivial
  | .writeIdentity c _ =>
    match hc : p.1.calls c with
    | some (.selected params now (some record)) =>
      decidable_of_iff (record.stored = "" → Second p.2 params.contact params.reported →
          (p.1.rowOf params.contact).map IdentityRecord.trustLevel = some .untrusted) <| by
        constructor
        · intro h params' now' record' hc'
          rw [hc] at hc'
          cases hc'
          exact h
        · exact fun h => h params now record hc
    | some (.selected _ _ none) | some (.returned _ _) | some .failed | none =>
      isTrue fun _ _ _ h => by rw [hc] at h; cases h

theorem noAuto_step (hs : NoAuto s) (he : e.NotAuto) (h : step s e = some s') : NoAuto s' := by
  intro c params now existing hc
  cases e with
  | recordIdentity d params' now' =>
    simp only [step] at h
    split at h
    · obtain rfl := Option.some.inj h
      rcases Runs.update_eq_some hc with ⟨-, hnew⟩ | ⟨-, hold⟩
      · obtain ⟨rfl, -, -⟩ := Call.selected.inj (Option.some.inj hnew)
        exact he
      · exact hs c params now existing hold
    · cases h
  | writeIdentity d id =>
    simp only [step] at h
    split at h
    · split_ifs at h
      all_goals
        obtain rfl := Option.some.inj h
        rcases Runs.update_eq_some hc with ⟨-, hnew⟩ | ⟨-, hold⟩
        · cases hnew
        · exact hs c params now existing hold
    · obtain rfl := Option.some.inj h
      rcases Runs.update_eq_some hc with ⟨-, hnew⟩ | ⟨-, hold⟩
      · cases hnew
      · exact hs c params now existing hold
    · cases h
  | setTrustLevel contact level verifier now' =>
    obtain rfl := Option.some.inj h
    exact hs c params now existing hc

section Told

variable {told : List Out} {k : Contact} {fingerprint : String}

theorem unacknowledged_reported :
    Unacknowledged (told ++ [.reported k fingerprint]) contact ↔
      (k = contact ∧ Second told contact fingerprint) ∨ Unacknowledged told contact := by
  unfold Unacknowledged
  rw [Histories.since_concat, and_iff_right trusts_reported]
  refine or_congr_left ⟨?_, ?_⟩
  · rintro ⟨f, hf, hsecond⟩
    obtain ⟨rfl, rfl⟩ := Out.reported.inj hf
    exact ⟨rfl, hsecond⟩
  · rintro ⟨rfl, hsecond⟩
    exact ⟨fingerprint, rfl, hsecond⟩

theorem unacknowledged_trusted {level : TrustLevel} :
    Unacknowledged (told ++ [.trusted k level fingerprint]) contact ↔
      k ≠ contact ∧ Unacknowledged told contact := by
  unfold Unacknowledged
  rw [Histories.since_concat, trusts_trusted]
  refine or_iff_right ?_
  rintro ⟨f, hf, -⟩
  cases hf

end Told

/-- The fingerprint that a call has found stored is no second one. -/
theorem not_second_of_unchanged (hp : Sound p) {c : Nat} {params : Params} {now : Int}
    {record : IdentityRecord} (hc : p.1.calls c = some (.selected params now (some record)))
    (hchanged : ¬ KeyChanged params record) (hsecond : Second p.2 params.contact params.reported) :
    record.stored = "" := by
  by_contra hne
  obtain ⟨hreported, hnot, -⟩ := hsecond
  have hsame : params.reported = record.stored := by
    by_contra hdiff
    exact hchanged ⟨hreported, hne, hdiff⟩
  exact hnot (hsame ▸ (hp.calls c params now record hc).2 hne)

/-- **A step keeps the contacts with two fingerprints distrusted** exactly if it is no call that has
found a row without one and returns with a second one. -/
theorem distrusts_step (hp : Sound p) (hmodes : NoAuto p.1) (hd : Distrusts p)
    (h : recorded p e = some q) : Distrusts q ↔ SecondNoticed p e := by
  obtain ⟨-, hmoves⟩ := rowOf_step hp h
  cases hmoves with
  | quiet e hrows htold =>
    have hq : Distrusts q := by
      intro contact hun
      rw [hrows]
      exact hd contact (htold ▸ hun)
    refine iff_of_true hq ?_
    cases e with
    | writeIdentity c id =>
      intro params now record hc hempty hsecond
      -- a call that has read a row tells what it reports
      have htell := (Runs.recording_eq_some.mp h).2
      rw [out, hc, htold] at htell
      simp at htell
    | _ => trivial
  | inserted c id params now hnone hrows htold =>
    have hunknown : ∀ fingerprint, .reported params.contact fingerprint ∉ p.2 := by
      intro fingerprint hin
      obtain ⟨row, hrow⟩ := hp.known _ _ hin
      rw [hnone] at hrow
      cases hrow
    refine iff_of_true ?_ fun params' now' record hc hempty hsecond => ?_
    · intro contact hun
      rw [htold, unacknowledged_reported] at hun
      rcases hun with ⟨rfl, -, -, other, -, hother⟩ | hold
      · exact absurd hother (hunknown other)
      · have hlevel := hd contact hold
        rw [hrows, Function.update_of_ne]
        · exact hlevel
        · rintro rfl
          rw [hnone] at hlevel
          cases hlevel
    · have htell := (Runs.recording_eq_some.mp h).2
      rw [out, hc, htold] at htell
      obtain ⟨hcontact, -⟩ :=
        Out.reported.inj (List.singleton_inj.mp (List.append_cancel_left htell))
      obtain ⟨-, -, other, -, hother⟩ := hsecond
      exact absurd (hcontact ▸ hother) (hunknown other)
  | updated c id params now record row hcall hrow hrows htold =>
    have hlevel : ∀ contact, (q.1.rowOf contact).map IdentityRecord.trustLevel =
        if contact = params.contact ∧ KeyChanged params record then some .untrusted
        else (p.1.rowOf contact).map IdentityRecord.trustLevel := by
      intro contact
      rw [hrows]
      by_cases hk : contact = params.contact
      · rw [hk, Function.update_self, hrow]
        by_cases hchanged : KeyChanged params record
        · have hmode := hmodes c params now _ hcall
          simp [identityUpdate, hchanged, hmode]
        · simp [identityUpdate, hchanged]
      · rw [Function.update_of_ne hk]
        simp [hk]
    constructor
    · intro hq params' now' record' hc hempty hsecond
      rw [hcall] at hc
      obtain ⟨rfl, rfl, hrecord⟩ := Call.selected.inj (Option.some.inj hc)
      obtain rfl := Option.some.inj hrecord
      have hun := hq params.contact
        (htold ▸ unacknowledged_reported.mpr (.inl ⟨rfl, hsecond⟩))
      rwa [hlevel, if_neg fun hboth => hboth.2.2.1 hempty] at hun
    · intro hnoticed contact hun
      rw [hlevel]
      split_ifs with hboth
      · rfl
      · rw [htold, unacknowledged_reported] at hun
        rcases hun with ⟨rfl, hsecond⟩ | hold
        · have hchanged : ¬ KeyChanged params record := fun hchanged => hboth ⟨rfl, hchanged⟩
          have hempty := not_second_of_unchanged hp hcall hchanged hsecond
          exact hnoticed params now record hcall hempty hsecond
        · exact hd contact hold
  | trusted k level verifier now row hrow hrows htold =>
    refine iff_of_true ?_ trivial
    intro contact hun
    rw [htold, unacknowledged_trusted] at hun
    rw [hrows, Function.update_of_ne (Ne.symm hun.1)]
    exact hd contact hun.2

/-- **A contact with two fingerprints is distrusted until `setTrustLevel` is called, and a level of
verified refers to the stored fingerprint**: all along a run exactly if no call that has found the
contact's row without a fingerprint returns with a second one while the contact is trusted. -/
theorem identity_trust_iff {es : List Event} (hmodes : ∀ e ∈ es, e.NotAuto)
    (h : Runs.run recorded (start, []) es = some q) :
    (∀ before after m, es = before ++ after → Runs.run recorded (start, []) before = some m →
        Distrusts m ∧ VerifiedIsStored m) ↔
      Runs.Along recorded SecondNoticed (start, []) es := by
  have hstart : Sound (start, []) ∧ NoAuto start ∧ VerifiedIsStored (start, []) := by
    refine ⟨sound_start, fun c params now existing hc => ?_, fun contact row hrow => ?_⟩
    · cases hc
    · cases hrow
  have hnone : Distrusts (start, []) := fun contact hun => absurd hun Histories.since_nil
  have hkeep : ∀ p q : Recorded, ∀ e ∈ es, Sound p ∧ NoAuto p.1 ∧ VerifiedIsStored p →
      recorded p e = some q → Sound q ∧ NoAuto q.1 ∧ VerifiedIsStored q := by
    rintro p q e he ⟨hp, hauto, hv⟩ hstep
    exact ⟨sound_step hp hstep, noAuto_step hauto (hmodes e he) (Runs.recording_eq_some.mp hstep).1,
      verified_step hp hstep hv⟩
  refine Runs.inv_iff_along_mem (I := fun p => Sound p ∧ NoAuto p.1 ∧ VerifiedIsStored p) hkeep
    ?_ hstart ⟨hnone, hstart.2.2⟩ h
  rintro p q e he ⟨hp, hauto, hv⟩ ⟨hd, -⟩ hstep
  rw [and_iff_left (hkeep p q e he ⟨hp, hauto, hv⟩ hstep).2.2]
  exact distrusts_step hp hauto hd hstep

/-- A report of a contact, in the mode that is the default. -/
def report (fingerprint : Option String) : Params where
  hubId := "hub"
  number := "+15550100"
  uuid := "contact"
  fingerprint := fingerprint
  trustMode := none

/-- The fingerprints are reported one after the other. -/
def reports (fingerprints : List (Option String)) : List Event :=
  (fingerprints.mapIdx fun c fingerprint =>
    [Event.recordIdentity c (report fingerprint) c, .writeIdentity c "row"]).flatten

/-- A contact's key changes, and the contact is distrusted. -/
theorem changed_key_distrusted : ∃ q,
    Runs.run recorded (start, []) (reports [some "f1", some "f2"]) = some q ∧
      Unacknowledged q.2 ("hub", "contact") ∧ Distrusts q := by
  obtain ⟨q, hq, htold⟩ : ∃ q ∈ Runs.run recorded (start, []) (reports [some "f1", some "f2"]),
      q.2 = [.reported ("hub", "contact") "f1"] ++ .reported ("hub", "contact") "f2" :: [] := by
    decide +kernel
  refine ⟨q, hq, ?_, ?_⟩
  · rw [htold]
    exact ⟨_, _, _, rfl, ⟨_, rfl, by decide⟩, by simp⟩
  · exact ((identity_trust_iff (by decide) hq).mpr (by decide +kernel) _ [] q
      (List.append_nil _).symm hq).1

/-- **A key change that is not noticed.** A contact's first message comes without a fingerprint, the
next ones with two different fingerprints: none is stored, and the contact is trusted. -/
theorem unnoticed_change : ¬ ∀ es q, (∀ e ∈ es, e.NotAuto) →
    Runs.run recorded (start, []) es = some q → Distrusts q ∧ VerifiedIsStored q := by
  intro h
  obtain ⟨q, hq, htold, htrusted⟩ : ∃ q ∈ Runs.run recorded (start, [])
      (reports [none, some "f1", some "f2"]),
      q.2 = [.reported ("hub", "contact") "", .reported ("hub", "contact") "f1"] ++
        .reported ("hub", "contact") "f2" :: [] ∧
      (q.1.rowOf ("hub", "contact")).map IdentityRecord.trustLevel = some .trustedUnverified := by
    decide +kernel
  have hun : Unacknowledged q.2 ("hub", "contact") := by
    rw [htold]
    exact ⟨_, _, _, rfl, ⟨_, rfl, by decide⟩, by simp⟩
  have hlevel := (h (reports [none, some "f1", some "f2"]) q (by decide) hq).1 _ hun
  rw [htrusted] at hlevel
  cases hlevel

end Llamenos.Worker.Signal.Identity

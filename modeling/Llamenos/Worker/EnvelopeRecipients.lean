import Llamenos.Lib.Tables
import Llamenos.Shared.Permissions.Unions
import Mathlib.Data.List.Forall2

/-!
# Who can decrypt a record

`determineEnvelopeRecipients` (`apps/worker/lib/envelope-recipients.ts`) names the keys that each
tier of a record is encrypted for: the summary for those with access to the entity type, the fields
for who is assigned, for the admins and for the edit roles, and the personal data for the admins and
the holders of a permission. The assigned keys are taken as they are given.

Results:
* `mem_summary_iff`, `mem_fields_iff`, `mem_pii_iff`: who is in each tier.
* `recipients_sound`: **the keys of a tier are of members, or assigned; each comes once; who has the
  fields has the summary with read access; and permissions only add recipients**.
* `assigned_outsider`: an assigned key that is of no member, and has no summary.
-/

namespace Llamenos.Worker.Recipients

open Llamenos.Lib Llamenos.Shared.Permissions

/-! ## The tiers -/

/-- `EntityTypeDefinition`, as far as it is read. -/
structure EntityTypeDefinition where
  accessRoles : Option (List String) := none
  editRoles : Option (List String) := none

structure HubMemberInfo where
  pubkey : String
  roles : List String
  permissions : List String

structure EnvelopeRecipients where
  summary : List String
  fields : List String
  pii : List String

variable (entityType : EntityTypeDefinition) (assignedPubkeys : List String)
  (hubMembers : List HubMemberInfo)

/-- The filter for admins that all tiers have. -/
def isAdmin (m : HubMemberInfo) : Bool :=
  permissionGranted m.permissions "cases:read-all" || permissionGranted m.permissions "cases:*"

def adminPubkeys : List String := (hubMembers.filter isAdmin).map HubMemberInfo.pubkey

/-- The filter of the roles, where there are any. -/
def hasRoleOf (roles : List String) (m : HubMemberInfo) : Bool :=
  m.roles.any fun r => roles.contains r

def getSummaryRecipients : List String :=
  let recipients :=
    match entityType.accessRoles with
    | some (role :: roles) =>
      (hubMembers.filter (hasRoleOf (role :: roles))).map HubMemberInfo.pubkey
    | _ =>
      (hubMembers.filter fun m =>
        permissionGranted m.permissions "cases:read-all" ||
          permissionGranted m.permissions "cases:read-assigned" ||
            permissionGranted m.permissions "cases:read-own").map HubMemberInfo.pubkey
  (recipients ++ adminPubkeys hubMembers).eraseDups

def getFieldRecipients : List String :=
  let editRolePubkeys :=
    match entityType.editRoles with
    | some (role :: roles) =>
      (hubMembers.filter (hasRoleOf (role :: roles))).map HubMemberInfo.pubkey
    | _ => []
  (assignedPubkeys ++ adminPubkeys hubMembers ++ editRolePubkeys).eraseDups

def getPIIRecipients (_entityType : EntityTypeDefinition) : List String :=
  let piiPubkeys :=
    (hubMembers.filter fun m =>
      permissionGranted m.permissions "contacts:view-pii" ||
        permissionGranted m.permissions "contacts:*").map HubMemberInfo.pubkey
  (adminPubkeys hubMembers ++ piiPubkeys).eraseDups

def determineEnvelopeRecipients : EnvelopeRecipients where
  summary := getSummaryRecipients entityType hubMembers
  fields := getFieldRecipients entityType assignedPubkeys hubMembers
  pii := getPIIRecipients hubMembers entityType

/-! ## Purpose -/

/-- A member with read access to the entity type: by a role, if some are named, otherwise by a
permission. -/
def MayRead (m : HubMemberInfo) : Prop :=
  match entityType.accessRoles with
  | some (role :: roles) => ∃ r ∈ m.roles, r ∈ role :: roles
  | _ => permissionGranted m.permissions "cases:read-all" = true ∨
      permissionGranted m.permissions "cases:read-assigned" = true ∨
        permissionGranted m.permissions "cases:read-own" = true

/-- A member with a role that may edit. -/
def MayEdit (m : HubMemberInfo) : Prop :=
  ∃ roles ∈ entityType.editRoles, ∃ r ∈ m.roles, r ∈ roles

/-- A member who sees the personal data. -/
def MayViewPii (m : HubMemberInfo) : Prop :=
  permissionGranted m.permissions "contacts:view-pii" = true ∨
    permissionGranted m.permissions "contacts:*" = true

/-- The key of such a member. -/
def KeyOf (p : HubMemberInfo → Prop) (key : String) : Prop :=
  ∃ m ∈ hubMembers, m.pubkey = key ∧ p m

/-- The same members, with permissions added. -/
def Grown (hubMembers hubMembers' : List HubMemberInfo) : Prop :=
  List.Forall₂ (fun m m' => m'.pubkey = m.pubkey ∧ m'.roles = m.roles ∧
    m.permissions ⊆ m'.permissions) hubMembers hubMembers'

/-- What holds of the recipients. -/
structure Sound : Prop where
  summary_members : ∀ key ∈ (determineEnvelopeRecipients entityType assignedPubkeys
    hubMembers).summary, KeyOf hubMembers (fun _ => True) key
  fields_members : ∀ key ∈ (determineEnvelopeRecipients entityType assignedPubkeys
    hubMembers).fields, key ∈ assignedPubkeys ∨ KeyOf hubMembers (fun _ => True) key
  pii_members : ∀ key ∈ (determineEnvelopeRecipients entityType assignedPubkeys hubMembers).pii,
    KeyOf hubMembers (fun _ => True) key
  summary_nodup : (determineEnvelopeRecipients entityType assignedPubkeys hubMembers).summary.Nodup
  fields_nodup : (determineEnvelopeRecipients entityType assignedPubkeys hubMembers).fields.Nodup
  pii_nodup : (determineEnvelopeRecipients entityType assignedPubkeys hubMembers).pii.Nodup
  fields_summary : ∀ key ∈ (determineEnvelopeRecipients entityType assignedPubkeys
    hubMembers).fields,
      key ∈ (determineEnvelopeRecipients entityType assignedPubkeys hubMembers).summary ∨
        (key ∈ assignedPubkeys ∨ KeyOf hubMembers (MayEdit entityType) key) ∧
          ¬ KeyOf hubMembers (fun m => isAdmin m = true ∨ MayRead entityType m) key
  monotone : ∀ hubMembers', Grown hubMembers hubMembers' →
    (determineEnvelopeRecipients entityType assignedPubkeys hubMembers).summary ⊆
        (determineEnvelopeRecipients entityType assignedPubkeys hubMembers').summary ∧
      (determineEnvelopeRecipients entityType assignedPubkeys hubMembers).fields ⊆
        (determineEnvelopeRecipients entityType assignedPubkeys hubMembers').fields ∧
      (determineEnvelopeRecipients entityType assignedPubkeys hubMembers).pii ⊆
        (determineEnvelopeRecipients entityType assignedPubkeys hubMembers').pii

/-! ## Who is in each tier -/

variable {entityType assignedPubkeys hubMembers} {hubMembers' : List HubMemberInfo} {key : String}
  {p q : HubMemberInfo → Prop}

theorem mem_filter_pubkeys {f : HubMemberInfo → Bool} (hf : ∀ m, f m = true ↔ p m) :
    key ∈ (hubMembers.filter f).map HubMemberInfo.pubkey ↔ KeyOf hubMembers p key := by
  simp only [List.mem_map, List.mem_filter, hf, KeyOf]
  constructor
  · rintro ⟨m, ⟨hm, hp⟩, hkey⟩
    exact ⟨m, hm, hkey, hp⟩
  · rintro ⟨m, hm, hkey, hp⟩
    exact ⟨m, ⟨hm, hp⟩, hkey⟩

theorem mem_adminPubkeys : key ∈ adminPubkeys hubMembers ↔
    KeyOf hubMembers (fun m => isAdmin m = true) key :=
  mem_filter_pubkeys fun _ => Iff.rfl

theorem hasRoleOf_iff {roles : List String} {m : HubMemberInfo} :
    hasRoleOf roles m = true ↔ ∃ r ∈ m.roles, r ∈ roles := by
  simp [hasRoleOf]

theorem keyOf_or : KeyOf hubMembers (fun m => p m ∨ q m) key ↔
    KeyOf hubMembers p key ∨ KeyOf hubMembers q key := by
  simp only [KeyOf, and_or_left, exists_or]

theorem KeyOf.mono (hkey : KeyOf hubMembers p key) (h : ∀ m, p m → q m) :
    KeyOf hubMembers q key := by
  obtain ⟨m, hm, hpubkey, hp⟩ := hkey
  exact ⟨m, hm, hpubkey, h m hp⟩

theorem mem_summary_iff : key ∈ getSummaryRecipients entityType hubMembers ↔
    KeyOf hubMembers (fun m => isAdmin m = true ∨ MayRead entityType m) key := by
  rw [getSummaryRecipients, List.mem_eraseDups, List.mem_append, mem_adminPubkeys, keyOf_or,
    or_comm]
  refine or_congr_right ?_
  unfold MayRead
  split
  · exact mem_filter_pubkeys fun m => hasRoleOf_iff
  · refine mem_filter_pubkeys fun m => ?_
    rw [Bool.or_eq_true, Bool.or_eq_true, or_assoc]

theorem mem_fields_iff : key ∈ getFieldRecipients entityType assignedPubkeys hubMembers ↔
    key ∈ assignedPubkeys ∨
      KeyOf hubMembers (fun m => isAdmin m = true ∨ MayEdit entityType m) key := by
  rw [getFieldRecipients, List.mem_eraseDups, List.mem_append, List.mem_append, mem_adminPubkeys,
    keyOf_or, or_assoc]
  refine or_congr_right (or_congr_right ?_)
  unfold MayEdit
  split
  next role roles hroles =>
    rw [hroles]
    simp only [Option.mem_some_iff, exists_eq_left']
    exact mem_filter_pubkeys fun m => hasRoleOf_iff
  next hroles =>
    refine iff_of_false (List.not_mem_nil) ?_
    rintro ⟨m, -, -, roles, hsome, r, -, hr⟩
    cases roles with
    | nil => cases hr
    | cons role roles => exact hroles role roles hsome

theorem mem_pii_iff : key ∈ getPIIRecipients hubMembers entityType ↔
    KeyOf hubMembers (fun m => isAdmin m = true ∨ MayViewPii m) key := by
  rw [getPIIRecipients, List.mem_eraseDups, List.mem_append, mem_adminPubkeys, keyOf_or]
  refine or_congr_right (mem_filter_pubkeys fun m => ?_)
  rw [Bool.or_eq_true, MayViewPii]

/-! ## What holds of the recipients -/

theorem Grown.exists_of_mem {m : HubMemberInfo} (h : Grown hubMembers hubMembers')
    (hm : m ∈ hubMembers) : ∃ m' ∈ hubMembers', m'.pubkey = m.pubkey ∧ m'.roles = m.roles ∧
      m.permissions ⊆ m'.permissions := by
  induction h with
  | nil => cases hm
  | cons hfirst _ ih =>
    rcases List.mem_cons.mp hm with rfl | hm
    · exact ⟨_, List.mem_cons_self, hfirst⟩
    · obtain ⟨m', hm', h⟩ := ih hm
      exact ⟨m', List.mem_cons_of_mem _ hm', h⟩

theorem KeyOf.grown (h : Grown hubMembers hubMembers') (hkey : KeyOf hubMembers p key)
    (hp : ∀ m m', m'.roles = m.roles → m.permissions ⊆ m'.permissions → p m → p m') :
    KeyOf hubMembers' p key := by
  obtain ⟨m, hm, hpubkey, hpm⟩ := hkey
  obtain ⟨m', hm', hsame, hroles, hpermissions⟩ := h.exists_of_mem hm
  exact ⟨m', hm', hsame.trans hpubkey, hp m m' hroles hpermissions hpm⟩

theorem isAdmin_mono {m m' : HubMemberInfo} (h : m.permissions ⊆ m'.permissions)
    (hadmin : isAdmin m = true) : isAdmin m' = true := by
  rw [isAdmin, Bool.or_eq_true] at hadmin ⊢
  exact hadmin.imp (permissionGranted_mono h) (permissionGranted_mono h)

theorem MayRead.mono {m m' : HubMemberInfo} (hroles : m'.roles = m.roles)
    (h : m.permissions ⊆ m'.permissions) (hread : MayRead entityType m) :
    MayRead entityType m' := by
  unfold MayRead at hread ⊢
  split at hread
  · rwa [hroles]
  · exact hread.imp (permissionGranted_mono h)
      (Or.imp (permissionGranted_mono h) (permissionGranted_mono h))

/-- **Permissions only add recipients.** -/
theorem recipients_mono (h : Grown hubMembers hubMembers') :
    getSummaryRecipients entityType hubMembers ⊆ getSummaryRecipients entityType hubMembers' ∧
      getFieldRecipients entityType assignedPubkeys hubMembers ⊆
        getFieldRecipients entityType assignedPubkeys hubMembers' ∧
      getPIIRecipients hubMembers entityType ⊆ getPIIRecipients hubMembers' entityType := by
  refine ⟨fun key hkey => ?_, fun key hkey => ?_, fun key hkey => ?_⟩
  · rw [mem_summary_iff] at hkey ⊢
    exact hkey.grown h fun m m' hroles hpermissions =>
      Or.imp (isAdmin_mono hpermissions) (MayRead.mono hroles hpermissions)
  · rw [mem_fields_iff] at hkey ⊢
    refine hkey.imp_right fun hmember => hmember.grown h fun m m' hroles hpermissions => ?_
    refine Or.imp (isAdmin_mono hpermissions) fun hedit => ?_
    rwa [MayEdit, hroles]
  · rw [mem_pii_iff] at hkey ⊢
    refine hkey.grown h fun m m' _ hpermissions => Or.imp (isAdmin_mono hpermissions) ?_
    exact Or.imp (permissionGranted_mono hpermissions) (permissionGranted_mono hpermissions)

/-- **The keys of a tier are of members, or assigned; each comes once; who has the fields has the
summary with read access; and permissions only add recipients.** -/
theorem recipients_sound (entityType : EntityTypeDefinition) (assignedPubkeys : List String)
    (hubMembers : List HubMemberInfo) : Sound entityType assignedPubkeys hubMembers where
  summary_members key hkey := (mem_summary_iff.mp hkey).mono fun _ _ => trivial
  fields_members key hkey :=
    (mem_fields_iff.mp hkey).imp_right fun hmember => hmember.mono fun _ _ => trivial
  pii_members key hkey := by
    have hpii : key ∈ getPIIRecipients hubMembers entityType := hkey
    exact (mem_pii_iff.mp hpii).mono fun _ _ => trivial
  summary_nodup := Tables.nodup_eraseDups _
  fields_nodup := Tables.nodup_eraseDups _
  pii_nodup := Tables.nodup_eraseDups _
  fields_summary key hkey := by
    by_cases hsummary : KeyOf hubMembers (fun m => isAdmin m = true ∨ MayRead entityType m) key
    · exact .inl (mem_summary_iff.mpr hsummary)
    · refine .inr ⟨(mem_fields_iff.mp hkey).imp_right fun hmember => ?_, hsummary⟩
      refine (keyOf_or.mp hmember).resolve_left fun hadmin => hsummary ?_
      exact hadmin.mono fun _ => .inl
  monotone _ hgrown := recipients_mono hgrown

/-- A key that is assigned, and of nobody. -/
theorem assigned_outsider :
    "old" ∈ (determineEnvelopeRecipients {} ["old"] []).fields ∧
      ¬ ((∀ key ∈ (determineEnvelopeRecipients {} ["old"] []).fields,
          KeyOf [] (fun _ => True) key) ∨
        ∀ key ∈ (determineEnvelopeRecipients {} ["old"] []).fields,
          key ∈ (determineEnvelopeRecipients {} ["old"] []).summary) := by
  have hfields : "old" ∈ (determineEnvelopeRecipients {} ["old"] []).fields := by decide
  refine ⟨hfields, ?_⟩
  rintro (hmember | hsummary)
  · obtain ⟨m, hm, -⟩ := hmember "old" hfields
    cases hm
  · exact absurd (hsummary "old" hfields) (by decide)

end Llamenos.Worker.Recipients

import Llamenos.Lib.RowCodec
import Llamenos.Worker.Date

/-!
# The definitions of entity types

`getEntityTypes` and `bulkSetEntityTypes` of `apps/worker/services/settings.ts`, over the table
`entity_type_definitions` of `apps/worker/db/schema/settings.ts`. A row is its columns, a definition
what the type of that name has; both as they are at run time, so that a definition may lack what the
type has defaults for. What the JSON columns hold is a list of any type `V`.

A statement that leaves a column out, or gives it `undefined`, sets its default. The rows are read
in the order in which they were inserted, which the database does not promise. The texts that
`new Date` reads are a parameter; of them it is used that it reads what `toISOString` writes. No
statement fails but by the primary key.

Results:
* `entityTypeValues_rowToEntityType`: what a definition that has been read is stored as.
* `rowToEntityType_entityTypeValues_iff`: when a definition is read as it was written.
* `entityTypes_iff`: **when reading and writing undo each other**.
* `autoAssign_reset`: an entity type with automatic assignment, written back without it.
-/

namespace Llamenos.Worker.Settings.EntityTypes

open Llamenos.Lib.RowCodec

/-! ## The table -/

/-- A property that may be `undefined`, or `null`. -/
inductive Nullable (α : Type) where
  | undefined
  | null
  | value (a : α)

/-- What is stored of it. -/
def Nullable.column {α : Type} : Nullable α → Option α
  | undefined | null => none
  | value a => some a

/-- What is read. -/
def Nullable.ofColumn {α : Type} : Option α → Nullable α
  | none => null
  | some a => value a

/-- `EntityTypeDefinition`, as it is at run time. -/
structure EntityTypeDefinition (V : Type) where
  id : String
  hubId : Option String
  name : String
  label : String
  labelPlural : Option String
  description : Option String
  icon : Option String
  color : Option String
  category : Option String
  templateId : Option String
  templateVersion : Option String
  fields : Option (List V)
  statuses : Option (List V)
  defaultStatus : Option String
  closedStatuses : Option (List String)
  severities : Nullable (List V)
  defaultSeverity : Option String
  categories : Nullable (List V)
  contactRoles : Nullable (List V)
  numberPrefix : Option String
  numberingEnabled : Option Bool
  defaultAccessLevel : Option String
  piiFields : Option (List String)
  allowSubRecords : Option Bool
  allowFileAttachments : Option Bool
  allowInteractionLinks : Option Bool
  showInNavigation : Option Bool
  showInDashboard : Option Bool
  displayTypes : Option (List String)
  defaultDisplayType : Option String
  accessRoles : Option (List String)
  editRoles : Option (List String)
  isArchived : Option Bool
  isSystem : Option Bool
  autoAssign : Option Bool
  autoAssignThreshold : Option Int
  requiredSpecializations : Option (List String)
  notifyContactsOnStatusChange : Option Bool
  createdAt : Option String
  updatedAt : Option String

/-- A row of `entity_type_definitions`. -/
structure Row (V : Type) where
  id : String
  hubId : String
  name : String
  label : String
  labelPlural : String
  description : String
  icon : Option String
  color : Option String
  category : String
  templateId : Option String
  templateVersion : Option String
  fields : List V
  statuses : List V
  defaultStatus : String
  closedStatuses : List String
  severities : Option (List V)
  defaultSeverity : Option String
  categories : Option (List V)
  contactRoles : Option (List V)
  numberPrefix : Option String
  numberingEnabled : Option Bool
  defaultAccessLevel : String
  piiFields : List String
  allowSubRecords : Option Bool
  allowFileAttachments : Option Bool
  allowInteractionLinks : Option Bool
  showInNavigation : Option Bool
  showInDashboard : Option Bool
  accessRoles : List String
  editRoles : List String
  autoAssign : Option Bool
  autoAssignThreshold : Option Int
  requiredSpecializations : List String
  isArchived : Option Bool
  isSystem : Option Bool
  createdAt : Date
  updatedAt : Date

/-- The defaults of the columns that an insertion may leave out. -/
def defaultAccessRoles : List String := []
def defaultEditRoles : List String := []
def defaultAutoAssign : Bool := false
def defaultAutoAssignThreshold : Int := 30
def defaultRequiredSpecializations : List String := []

/-! ## The methods -/

variable {V : Type}

/-- `rowToEntityType`. -/
def rowToEntityType (r : Row V) : EntityTypeDefinition V where
  id := r.id
  hubId := some r.hubId
  name := r.name
  label := r.label
  labelPlural := some r.labelPlural
  description := some r.description
  icon := r.icon
  color := r.color
  category := some r.category
  templateId := r.templateId
  templateVersion := r.templateVersion
  fields := some r.fields
  statuses := some r.statuses
  defaultStatus := some r.defaultStatus
  closedStatuses := some r.closedStatuses
  severities := .ofColumn r.severities
  defaultSeverity := r.defaultSeverity
  categories := .ofColumn r.categories
  contactRoles := .ofColumn r.contactRoles
  numberPrefix := r.numberPrefix
  numberingEnabled := some (r.numberingEnabled.getD false)
  defaultAccessLevel := some r.defaultAccessLevel
  piiFields := some r.piiFields
  allowSubRecords := some (r.allowSubRecords.getD false)
  allowFileAttachments := some (r.allowFileAttachments.getD true)
  allowInteractionLinks := some (r.allowInteractionLinks.getD true)
  showInNavigation := some (r.showInNavigation.getD true)
  showInDashboard := some (r.showInDashboard.getD true)
  -- The table has no column for these three.
  displayTypes := none
  defaultDisplayType := none
  notifyContactsOnStatusChange := none
  accessRoles := some r.accessRoles
  editRoles := some r.editRoles
  autoAssign := some (r.autoAssign.getD false)
  autoAssignThreshold := some (r.autoAssignThreshold.getD 30)
  requiredSpecializations := some r.requiredSpecializations
  isArchived := some (r.isArchived.getD false)
  isSystem := some (r.isSystem.getD false)
  createdAt := some (toISOString r.createdAt)
  updatedAt := some (toISOString r.updatedAt)

/-- `getEntityTypes`. -/
def getEntityTypes (rows : List (Row V)) (hubId : Option String) : List (EntityTypeDefinition V) :=
  match hubId with
  | some hubId => (rows.filter fun r => r.hubId = hubId).map rowToEntityType
  | none => rows.map rowToEntityType

/-- `text ? new Date(text) : now`, if it is valid. -/
def timeOf (parseDate : String → Option Date) (now : Date) (text : Option String) : Option Date :=
  match text with
  | none | some "" => some now
  | some text => parseDate text

/-- The row that `bulkSetEntityTypes` inserts for a definition, with its times. -/
def entityTypeRow (et : EntityTypeDefinition V) (createdAt updatedAt : Date) : Row V where
  id := et.id
  hubId := et.hubId.getD ""
  name := et.name
  label := et.label
  labelPlural := et.labelPlural.getD ""
  description := et.description.getD ""
  icon := et.icon
  color := et.color
  category := et.category.getD "case"
  templateId := et.templateId
  templateVersion := et.templateVersion
  fields := et.fields.getD []
  statuses := et.statuses.getD []
  defaultStatus := et.defaultStatus.getD ""
  closedStatuses := et.closedStatuses.getD []
  severities := et.severities.column
  defaultSeverity := et.defaultSeverity
  categories := et.categories.column
  contactRoles := et.contactRoles.column
  numberPrefix := et.numberPrefix
  numberingEnabled := some (et.numberingEnabled.getD false)
  defaultAccessLevel := et.defaultAccessLevel.getD "assigned"
  piiFields := et.piiFields.getD []
  allowSubRecords := some (et.allowSubRecords.getD false)
  allowFileAttachments := some (et.allowFileAttachments.getD true)
  allowInteractionLinks := some (et.allowInteractionLinks.getD true)
  showInNavigation := some (et.showInNavigation.getD true)
  showInDashboard := some (et.showInDashboard.getD true)
  accessRoles := et.accessRoles.getD defaultAccessRoles
  editRoles := et.editRoles.getD defaultEditRoles
  -- The values leave these three columns out.
  autoAssign := some defaultAutoAssign
  autoAssignThreshold := some defaultAutoAssignThreshold
  requiredSpecializations := defaultRequiredSpecializations
  isArchived := some (et.isArchived.getD false)
  isSystem := some (et.isSystem.getD false)
  createdAt := createdAt
  updatedAt := updatedAt

/-- The row with the times that it has, or `now`; none if a time is invalid, which the insertion
throws for. -/
def entityTypeValues (parseDate : String → Option Date) (now : Date) (et : EntityTypeDefinition V) :
    Option (Row V) := do
  let createdAt ← timeOf parseDate now et.createdAt
  let updatedAt ← timeOf parseDate now et.updatedAt
  return entityTypeRow et createdAt updatedAt

/-- `bulkSetEntityTypes`; `now` is the time at each definition. -/
def bulkSetEntityTypes (parseDate : String → Option Date) (now : Nat → Date) (rows : List (Row V))
    (entityTypes : List (EntityTypeDefinition V)) (hubId : Option String) :
    List (Row V) × Except (Refusal String) (List (EntityTypeDefinition V)) :=
  let others := match hubId with
    | some hubId => rows.filter fun r => !decide (r.hubId = hubId)
    | none => []
  match insertAll Row.id (fun et => entityTypeValues parseDate et.2 et.1)
      (entityTypes.mapIdx fun i et => (et, now i)) others with
  -- The transaction is rolled back.
  | .error refusal => (rows, .error refusal)
  | .ok after => (after, .ok entityTypes)

/-! ## Purpose -/

/-- The rows that a call for a hub is about: those of the hub, or all of them. -/
def ofHub (hubId : Option String) (r : Row V) : Bool := hubId.all fun hubId => r.hubId = hubId

/-- A row that reads as what it has: no assignment is set, and no flag is `NULL`. -/
structure Row.Plain (r : Row V) : Prop where
  unassigned : r.autoAssign = some false ∧ r.autoAssignThreshold = some 30 ∧
    r.requiredSpecializations = []
  flags : none ∉ [r.numberingEnabled, r.allowSubRecords, r.allowFileAttachments,
    r.allowInteractionLinks, r.showInNavigation, r.showInDashboard, r.isArchived, r.isSystem]

/-- A definition with nothing but what is stored and read for a hub. -/
structure EntityTypeDefinition.Storable (hubId : Option String) (et : EntityTypeDefinition V) :
    Prop where
  hub : ∃ h, et.hubId = some h ∧ hubId.all fun hubId => h = hubId
  texts : none ∉ [et.labelPlural, et.description, et.category, et.defaultStatus,
    et.defaultAccessLevel]
  flags : none ∉ [et.numberingEnabled, et.allowSubRecords, et.allowFileAttachments,
    et.allowInteractionLinks, et.showInNavigation, et.showInDashboard, et.isArchived, et.isSystem]
  lists : none ∉ [et.fields, et.statuses] ∧
    none ∉ [et.closedStatuses, et.piiFields, et.accessRoles, et.editRoles]
  options : .undefined ∉ [et.severities, et.categories, et.contactRoles]
  times : ∃ created updated, et.createdAt = some (toISOString created) ∧
    et.updatedAt = some (toISOString updated)
  unassigned : et.autoAssign = some false ∧ et.autoAssignThreshold = some 30 ∧
    et.requiredSpecializations = some []
  unshown : et.displayTypes = none ∧ et.defaultDisplayType = none ∧
    et.notifyContactsOnStatusChange = none

/-- Writing back what has been read leaves all rows as they are, and what has been written is what
is read. -/
structure Undo (parseDate : String → Option Date) (now : Nat → Date) (rows : List (Row V))
    (entityTypes : List (EntityTypeDefinition V)) (hubId : Option String) : Prop where
  writeBack : (bulkSetEntityTypes parseDate now rows (getEntityTypes rows hubId) hubId).2 =
      .ok (getEntityTypes rows hubId) ∧
    (bulkSetEntityTypes parseDate now rows (getEntityTypes rows hubId) hubId).1.Perm rows
  readBack : (bulkSetEntityTypes parseDate now rows entityTypes hubId).2 = .ok entityTypes ∧
    getEntityTypes (bulkSetEntityTypes parseDate now rows entityTypes hubId).1 hubId = entityTypes

/-! ## One definition -/

variable {parseDate : String → Option Date} {now : Date}

theorem timeOf_toISOString (hparse : ∀ date, parseDate (toISOString date) = some date)
    (date : Date) : timeOf parseDate now (some (toISOString date)) = some date := by
  unfold timeOf
  split
  · next h => cases h
  · next h =>
    have hlength := congrArg String.length (Option.some.inj h)
    simp [toISOString] at hlength
  · next h => rw [← Option.some.inj h, hparse]

/-- What becomes of a row that is read and written back. -/
def again (r : Row V) : Row V :=
  { r with
    numberingEnabled := some (r.numberingEnabled.getD false)
    allowSubRecords := some (r.allowSubRecords.getD false)
    allowFileAttachments := some (r.allowFileAttachments.getD true)
    allowInteractionLinks := some (r.allowInteractionLinks.getD true)
    showInNavigation := some (r.showInNavigation.getD true)
    showInDashboard := some (r.showInDashboard.getD true)
    isArchived := some (r.isArchived.getD false)
    isSystem := some (r.isSystem.getD false)
    autoAssign := some false
    autoAssignThreshold := some 30
    requiredSpecializations := [] }

@[simp] theorem Nullable.column_ofColumn {α : Type} (a : Option α) :
    (Nullable.ofColumn a).column = a := by
  cases a <;> rfl

theorem Nullable.ofColumn_column {α : Type} {a : Nullable α} (h : a ≠ undefined) :
    Nullable.ofColumn a.column = a := by
  cases a with
  | undefined => exact absurd rfl h
  | null => rfl
  | value a => rfl

/-- **What a definition that has been read is stored as**. -/
theorem entityTypeValues_rowToEntityType
    (hparse : ∀ date, parseDate (toISOString date) = some date) (r : Row V) :
    entityTypeValues parseDate now (rowToEntityType r) = some (again r) := by
  unfold entityTypeValues
  simp only [rowToEntityType, timeOf_toISOString hparse, entityTypeRow, Nullable.column_ofColumn]
  rfl

/-- What is read of a row that has been inserted for a definition. -/
def reread (et : EntityTypeDefinition V) (createdAt updatedAt : Date) : EntityTypeDefinition V :=
  { et with
    hubId := some (et.hubId.getD "")
    labelPlural := some (et.labelPlural.getD "")
    description := some (et.description.getD "")
    category := some (et.category.getD "case")
    fields := some (et.fields.getD [])
    statuses := some (et.statuses.getD [])
    defaultStatus := some (et.defaultStatus.getD "")
    closedStatuses := some (et.closedStatuses.getD [])
    severities := .ofColumn et.severities.column
    categories := .ofColumn et.categories.column
    contactRoles := .ofColumn et.contactRoles.column
    numberingEnabled := some (et.numberingEnabled.getD false)
    defaultAccessLevel := some (et.defaultAccessLevel.getD "assigned")
    piiFields := some (et.piiFields.getD [])
    allowSubRecords := some (et.allowSubRecords.getD false)
    allowFileAttachments := some (et.allowFileAttachments.getD true)
    allowInteractionLinks := some (et.allowInteractionLinks.getD true)
    showInNavigation := some (et.showInNavigation.getD true)
    showInDashboard := some (et.showInDashboard.getD true)
    displayTypes := none
    defaultDisplayType := none
    notifyContactsOnStatusChange := none
    accessRoles := some (et.accessRoles.getD [])
    editRoles := some (et.editRoles.getD [])
    autoAssign := some false
    autoAssignThreshold := some 30
    requiredSpecializations := some []
    isArchived := some (et.isArchived.getD false)
    isSystem := some (et.isSystem.getD false)
    createdAt := some (toISOString createdAt)
    updatedAt := some (toISOString updatedAt) }

theorem rowToEntityType_entityTypeRow (et : EntityTypeDefinition V) (createdAt updatedAt : Date) :
    rowToEntityType (entityTypeRow et createdAt updatedAt) = reread et createdAt updatedAt := rfl

theorem some_getD {α : Type} {a : Option α} (h : a ≠ none) (d : α) : some (a.getD d) = a := by
  obtain ⟨value, rfl⟩ := Option.ne_none_iff_exists'.mp h
  rfl

theorem again_eq_iff {r : Row V} : again r = r ↔ r.Plain := by
  constructor
  · intro h
    refine ⟨?_, ?_⟩
    · rw [← h]
      exact ⟨rfl, rfl, rfl⟩
    · rw [← h]
      simp [again]
  · rintro ⟨⟨hassign, hthreshold, hspecializations⟩, hflags⟩
    have hflag : ∀ flag ∈ [r.numberingEnabled, r.allowSubRecords, r.allowFileAttachments,
        r.allowInteractionLinks, r.showInNavigation, r.showInDashboard, r.isArchived, r.isSystem],
        ∀ b, some (flag.getD b) = flag :=
      fun flag hmem b => some_getD (fun h => hflags (h ▸ hmem)) b
    simp only [List.forall_mem_cons] at hflag
    obtain ⟨h₁, h₂, h₃, h₄, h₅, h₆, h₇, h₈, -⟩ := hflag
    rw [again, h₁, h₂, h₃, h₄, h₅, h₆, h₇, h₈, ← hassign, ← hthreshold, ← hspecializations]

/-- **When a definition is read as it was written**. -/
theorem rowToEntityType_entityTypeValues_iff
    (hparse : ∀ date, parseDate (toISOString date) = some date) (hubId : Option String)
    (et : EntityTypeDefinition V) :
    (∃ r, entityTypeValues parseDate now et = some r ∧ ofHub hubId r ∧ rowToEntityType r = et) ↔
      et.Storable hubId := by
  constructor
  · rintro ⟨r, hvalues, hscope, rfl⟩
    rw [entityTypeValues_rowToEntityType hparse, Option.some.injEq, again_eq_iff] at hvalues
    obtain ⟨⟨hassign, hthreshold, hspecializations⟩, -⟩ := hvalues
    have hread : ∀ column : Option (List V), .undefined ≠ Nullable.ofColumn column := by
      rintro (- | values) h <;> cases h
    exact {
      hub := ⟨r.hubId, rfl, hscope⟩
      texts := by simp [rowToEntityType]
      flags := by simp [rowToEntityType]
      lists := ⟨by simp [rowToEntityType], by simp [rowToEntityType]⟩
      options := by simp [rowToEntityType, hread]
      times := ⟨r.createdAt, r.updatedAt, rfl, rfl⟩
      unassigned := by simp [rowToEntityType, hassign, hthreshold, hspecializations]
      unshown := ⟨rfl, rfl, rfl⟩ }
  · intro h
    obtain ⟨hub, hhub, hscope⟩ := h.hub
    obtain ⟨created, updated, hcreated, hupdated⟩ := h.times
    refine ⟨entityTypeRow et created updated, ?_, ?_, ?_⟩
    · unfold entityTypeValues
      rw [hcreated, hupdated, timeOf_toISOString hparse, timeOf_toISOString hparse]
      rfl
    · rw [ofHub, entityTypeRow, hhub]
      exact hscope
    · have htext : ∀ text ∈ [et.labelPlural, et.description, et.category, et.defaultStatus,
          et.defaultAccessLevel], ∀ d, some (text.getD d) = text :=
        fun text hmem d => some_getD (fun heq => h.texts (heq ▸ hmem)) d
      have hflag : ∀ flag ∈ [et.numberingEnabled, et.allowSubRecords, et.allowFileAttachments,
          et.allowInteractionLinks, et.showInNavigation, et.showInDashboard, et.isArchived,
          et.isSystem], ∀ d, some (flag.getD d) = flag :=
        fun flag hmem d => some_getD (fun heq => h.flags (heq ▸ hmem)) d
      have hvalues : ∀ values ∈ [et.fields, et.statuses], ∀ d, some (values.getD d) = values :=
        fun values hmem d => some_getD (fun heq => h.lists.1 (heq ▸ hmem)) d
      have hlist : ∀ list ∈ [et.closedStatuses, et.piiFields, et.accessRoles, et.editRoles],
          ∀ d, some (list.getD d) = list :=
        fun list hmem d => some_getD (fun heq => h.lists.2 (heq ▸ hmem)) d
      have hoption : ∀ options ∈ [et.severities, et.categories, et.contactRoles],
          .ofColumn options.column = options :=
        fun options hmem => Nullable.ofColumn_column fun heq => h.options (heq ▸ hmem)
      simp only [List.forall_mem_cons] at htext hflag hvalues hlist hoption
      obtain ⟨htext₁, htext₂, htext₃, htext₄, htext₅, -⟩ := htext
      obtain ⟨hflag₁, hflag₂, hflag₃, hflag₄, hflag₅, hflag₆, hflag₇, hflag₈, -⟩ := hflag
      obtain ⟨hlist₁, hlist₂, hlist₃, hlist₄, -⟩ := hlist
      have hhub' : some (et.hubId.getD "") = et.hubId := some_getD (by rw [hhub]; nofun) ""
      obtain ⟨hassign, hthreshold, hspecializations⟩ := h.unassigned
      obtain ⟨hdisplay, hdefault, hnotify⟩ := h.unshown
      rw [rowToEntityType_entityTypeRow, reread, hhub', htext₁, htext₂, htext₃, htext₄, htext₅,
        hflag₁, hflag₂, hflag₃, hflag₄, hflag₅, hflag₆, hflag₇, hflag₈, hvalues.1, hvalues.2.1,
        hlist₁, hlist₂, hlist₃, hlist₄, hoption.1, hoption.2.1, hoption.2.2.1, ← hassign,
        ← hthreshold, ← hspecializations, ← hdisplay, ← hdefault, ← hnotify, ← hcreated,
        ← hupdated]

/-! ## The definitions of a hub -/

theorem getEntityTypes_eq (rows : List (Row V)) (hubId : Option String) :
    getEntityTypes rows hubId = (rows.filter (ofHub hubId)).map rowToEntityType := by
  cases hubId with
  | some hubId => rfl
  | none => exact congrArg (List.map _) (List.filter_eq_self.mpr fun _ _ => rfl).symm

variable {now : Nat → Date} {rows : List (Row V)} {entityTypes : List (EntityTypeDefinition V)}
  {hubId : Option String}

/-- The definitions with the times at which their rows are inserted. -/
def timed (now : Nat → Date) (entityTypes : List (EntityTypeDefinition V)) :
    List (EntityTypeDefinition V × Date) :=
  entityTypes.mapIdx fun i et => (et, now i)

theorem map_fst_timed (now : Nat → Date) (entityTypes : List (EntityTypeDefinition V)) :
    (timed now entityTypes).map Prod.fst = entityTypes := by
  refine List.ext_getElem? fun i => ?_
  rw [List.getElem?_map, timed, List.getElem?_mapIdx, Option.map_map]
  exact Option.map_id'

/-- What holds for all definitions, whatever the times. -/
theorem forall_mem_timed (now : Nat → Date) {P : EntityTypeDefinition V → Prop} :
    (∀ et ∈ timed now entityTypes, P et.1) ↔ ∀ et ∈ entityTypes, P et := by
  rw [← List.forall_mem_map, map_fst_timed]

/-- The insertions of `bulkSetEntityTypes`, after the rows of the hub have been deleted. -/
def inserted (parseDate : String → Option Date) (now : Nat → Date) (rows : List (Row V))
    (entityTypes : List (EntityTypeDefinition V)) (hubId : Option String) :
    Except (Refusal String) (List (Row V)) :=
  insertAll Row.id (fun et => entityTypeValues parseDate et.2 et.1) (timed now entityTypes)
    (rows.filter fun r => !ofHub hubId r)

theorem bulkSetEntityTypes_eq : bulkSetEntityTypes parseDate now rows entityTypes hubId =
    match inserted parseDate now rows entityTypes hubId with
    | .error refusal => (rows, .error refusal)
    | .ok after => (after, .ok entityTypes) := by
  cases hubId with
  | some hubId => rfl
  | none =>
    have hnone : (rows.filter fun r => !ofHub none r) = [] :=
      List.filter_eq_nil_iff.mpr fun _ _ => by simp [ofHub]
    rw [inserted, hnone]
    rfl

theorem id_entityTypeValues {et : EntityTypeDefinition V × Date} {r : Row V}
    (h : entityTypeValues parseDate et.2 et.1 = some r) : r.id = et.1.id := by
  simp only [entityTypeValues, Option.bind_eq_bind, Option.bind_eq_some_iff, Option.pure_def,
    Option.some.injEq] at h
  obtain ⟨created, -, updated, -, rfl⟩ := h
  rfl

/-- When all that has been written is what is read. -/
theorem bulkSet_readBack_iff (now : Nat → Date)
    (hparse : ∀ date, parseDate (toISOString date) = some date) :
    ((bulkSetEntityTypes parseDate now rows entityTypes hubId).2 = .ok entityTypes ∧
      getEntityTypes (bulkSetEntityTypes parseDate now rows entityTypes hubId).1 hubId =
        entityTypes) ↔
      (entityTypes.map EntityTypeDefinition.id).Nodup ∧
        (∀ et ∈ entityTypes, ∀ r ∈ rows, ofHub hubId r = false → r.id ≠ et.id) ∧
        ∀ et ∈ entityTypes, et.Storable hubId := by
  have hok : ((bulkSetEntityTypes parseDate now rows entityTypes hubId).2 = .ok entityTypes ∧
      getEntityTypes (bulkSetEntityTypes parseDate now rows entityTypes hubId).1 hubId =
        entityTypes) ↔ ∃ after, inserted parseDate now rows entityTypes hubId = .ok after ∧
          (after.filter (ofHub hubId)).map rowToEntityType =
            (timed now entityTypes).map Prod.fst := by
    rw [bulkSetEntityTypes_eq, map_fst_timed]
    cases inserted parseDate now rows entityTypes hubId with
    | error refusal => simp
    | ok after => simp [getEntityTypes_eq]
  have hids : (timed now entityTypes).map (fun et => et.1.id) =
      entityTypes.map EntityTypeDefinition.id := by
    rw [← congrArg (List.map _) (map_fst_timed now entityTypes), List.map_map]
    rfl
  rw [hok, inserted, readBack_iff fun et r h => id_entityTypeValues h, hids,
    forall_mem_timed now (P := fun et => ∀ r ∈ rows, ofHub hubId r = false → r.id ≠ et.id),
    ← forall_mem_timed now (P := fun et => et.Storable hubId)]
  simp only [rowToEntityType_entityTypeValues_iff hparse]

/-- What is stored when what has been read is written back. -/
theorem bulkSet_writeBack (hparse : ∀ date, parseDate (toISOString date) = some date)
    (hrows : (rows.map Row.id).Nodup) :
    bulkSetEntityTypes parseDate now rows (getEntityTypes rows hubId) hubId =
      ((rows.filter fun r => !ofHub hubId r) ++ (rows.filter (ofHub hubId)).map again,
        .ok (getEntityTypes rows hubId)) := by
  have hinserted : inserted parseDate now rows (getEntityTypes rows hubId) hubId =
      .ok ((rows.filter fun r => !ofHub hubId r) ++ (rows.filter (ofHub hubId)).map again) := by
    refine writeBack_eq hrows (fun r => rfl) (fun et r hread => ?_)
      ((map_fst_timed ..).trans (getEntityTypes_eq rows hubId))
    rw [hread]
    exact entityTypeValues_rowToEntityType hparse r
  rw [bulkSetEntityTypes_eq, hinserted]

/-- `new Date` of a text that `toISOString` writes. -/
noncomputable def readISOString : String → Option Date := Function.partialInv toISOString

theorem readISOString_toISOString (date : Date) : readISOString (toISOString date) = some date :=
  Function.partialInv_left toISOString_injective date

def epoch : Date := ⟨0, by decide⟩

/-- The type of the arrest cases of the hub `h`. -/
def arrestCase (id : String) (autoAssign : Bool) : Row String where
  id := id
  hubId := "h"
  name := "arrest_case"
  label := "Arrest Case"
  labelPlural := "Arrest Cases"
  description := ""
  icon := some "gavel"
  color := none
  category := "case"
  templateId := none
  templateVersion := none
  fields := []
  statuses := ["open", "closed"]
  defaultStatus := "open"
  closedStatuses := ["closed"]
  severities := none
  defaultSeverity := none
  categories := none
  contactRoles := some ["arrestee"]
  numberPrefix := some "AC"
  numberingEnabled := some true
  defaultAccessLevel := "assigned"
  piiFields := ["name"]
  allowSubRecords := some false
  allowFileAttachments := some true
  allowInteractionLinks := some true
  showInNavigation := some true
  showInDashboard := some true
  accessRoles := []
  editRoles := []
  autoAssign := some autoAssign
  autoAssignThreshold := some 30
  requiredSpecializations := []
  isArchived := some false
  isSystem := some false
  createdAt := epoch
  updatedAt := epoch

theorem arrestCase_storable (id : String) :
    (rowToEntityType (arrestCase id false)).Storable (some "h") := by
  have hvalues : entityTypeValues readISOString epoch (rowToEntityType (arrestCase id false)) =
      some (again (arrestCase id false)) :=
    entityTypeValues_rowToEntityType readISOString_toISOString _
  exact (rowToEntityType_entityTypeValues_iff readISOString_toISOString _ _).mp
    ⟨_, hvalues, rfl, rfl⟩

end Llamenos.Worker.Settings.EntityTypes

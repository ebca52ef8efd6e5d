import Mathlib.Data.List.Nodup
import Mathlib.Logic.Function.Basic

/-!
# Templates

`applyTemplate` of `apps/worker/lib/template-engine.ts`, over the templates of
`packages/protocol/template-types.ts`. Values that are only passed on are of any type `V`. Each
`crypto.randomUUID()` is the next one of a sequence.

Results:
* `nodup_resolvedEntityTypes`, `nodup_resolvedReportTypes`: a template resolves to types with
  distinct names, whatever it extends.
-/

namespace Llamenos.Worker.Templates

/-! ## Templates -/

inductive IndexType where
  | exact
  | none

inductive AccessLevel where
  | all
  | admin
  | assigned
  | custom

inductive DefaultAccessLevel where
  | assigned
  | team
  | hub

/-- A field of an entity type or of a report type. -/
structure FieldTemplate (V : Type) where
  name : String
  label : String
  type : V
  required : Option Bool := .none
  options : Option V := .none
  «section» : Option String := .none
  helpText : Option String := .none
  order : Option Nat := .none
  indexable : Option Bool := .none
  indexType : Option IndexType := .none
  accessLevel : Option AccessLevel := .none
  showWhen : Option V := .none
  hubEditable : Option Bool := .none
  supportAudioInput : Option Bool := .none

structure EntityTypeTemplate (V : Type) where
  name : String
  label : String
  labelPlural : String
  description : String
  icon : Option String := none
  color : Option String := none
  category : V
  fields : List (FieldTemplate V)
  statuses : V
  defaultStatus : String
  closedStatuses : List String
  severities : Option V := none
  defaultSeverity : Option String := none
  categories : Option V := none
  contactRoles : Option V := none
  numberPrefix : Option String := none
  numberingEnabled : Option Bool := none
  defaultAccessLevel : Option DefaultAccessLevel := none
  piiFields : Option (List String) := none
  allowSubRecords : Option Bool := none
  allowFileAttachments : Option Bool := none
  allowInteractionLinks : Option Bool := none
  showInNavigation : Option Bool := none
  showInDashboard : Option Bool := none

structure RelationshipTypeTemplate (V : Type) where
  sourceEntityTypeName : String
  targetEntityTypeName : String
  cardinality : V
  label : String
  reverseLabel : String
  sourceLabel : String
  targetLabel : String
  roles : Option V := none
  defaultRole : Option String := none
  cascadeDelete : Option Bool := none
  required : Option Bool := none

structure ReportTypeTemplate (V : Type) where
  name : String
  label : String
  labelPlural : String
  description : Option String := none
  icon : Option String := none
  color : Option String := none
  fields : List (FieldTemplate V)
  statuses : V
  defaultStatus : String
  closedStatuses : Option (List String) := none
  numberPrefix : Option String := none
  numberingEnabled : Option Bool := none
  allowFileAttachments : Option Bool := none
  allowCaseConversion : Option Bool := none
  mobileOptimized : Option Bool := none

/-- A template, with the labels of its `en` locale. -/
structure CaseManagementTemplate (V : Type) where
  id : String
  version : String
  «extends» : Option (List String) := none
  labels : List (String × String) := []
  entityTypes : Option (List (EntityTypeTemplate V)) := none
  relationshipTypes : Option (List (RelationshipTypeTemplate V)) := none
  reportTypes : Option (List (ReportTypeTemplate V)) := none

/-! ## Definitions -/

structure EntityFieldDefinition (V : Type) where
  id : String
  name : String
  label : String
  type : V
  required : Bool
  options : Option V
  «section» : Option String
  helpText : Option String
  order : Nat
  indexable : Bool
  indexType : IndexType
  accessLevel : AccessLevel
  visibleToUsers : Bool
  editableByUsers : Bool
  showWhen : Option V
  templateId : String
  hubEditable : Bool
  createdAt : String

structure EntityTypeDefinition (V : Type) where
  id : String
  hubId : String
  name : String
  label : String
  labelPlural : String
  description : String
  icon : Option String
  color : Option String
  category : V
  templateId : String
  templateVersion : String
  fields : List (EntityFieldDefinition V)
  statuses : V
  defaultStatus : String
  closedStatuses : List String
  severities : Option V
  defaultSeverity : Option String
  categories : Option V
  contactRoles : Option V
  numberPrefix : Option String
  numberingEnabled : Bool
  defaultAccessLevel : DefaultAccessLevel
  piiFields : List String
  allowSubRecords : Bool
  allowFileAttachments : Bool
  allowInteractionLinks : Bool
  showInNavigation : Bool
  showInDashboard : Bool
  isArchived : Bool
  isSystem : Bool
  autoAssign : Bool
  autoAssignThreshold : Nat
  requiredSpecializations : List String
  notifyContactsOnStatusChange : Bool
  createdAt : String
  updatedAt : String

structure RelationshipTypeDefinition (V : Type) where
  id : String
  hubId : String
  sourceEntityTypeId : String
  targetEntityTypeId : String
  cardinality : V
  label : String
  reverseLabel : String
  sourceLabel : String
  targetLabel : String
  roles : Option V
  defaultRole : Option String
  cascadeDelete : Bool
  required : Bool
  templateId : String
  isSystem : Bool
  createdAt : String
  updatedAt : String

structure ReportFieldDefinition (V : Type) extends EntityFieldDefinition V where
  supportAudioInput : Bool

structure ReportTypeDefinition (V : Type) where
  id : String
  hubId : String
  name : String
  label : String
  labelPlural : String
  description : String
  icon : Option String
  color : Option String
  category : String
  templateId : String
  templateVersion : String
  fields : List (ReportFieldDefinition V)
  statuses : V
  defaultStatus : String
  closedStatuses : List String
  numberPrefix : Option String
  numberingEnabled : Bool
  allowFileAttachments : Bool
  allowCaseConversion : Bool
  mobileOptimized : Bool
  isArchived : Bool
  isSystem : Bool
  createdAt : String
  updatedAt : String

structure AppliedTemplateRecord where
  templateId : String
  templateVersion : String
  appliedAt : String
  entityTypeIds : List String
  relationshipTypeIds : List String
  reportTypeIds : List String

structure Applied (V : Type) where
  entityTypes : List (EntityTypeDefinition V)
  relationshipTypes : List (RelationshipTypeDefinition V)
  reportTypes : List (ReportTypeDefinition V)
  appliedRecord : AppliedTemplateRecord

/-! ## The types that a template resolves to -/

variable {V : Type}

/-- `Map.set`, of a value under its name: it comes where the name is, or last. -/
def setNamed {α : Type} (name : α → String) (values : List α) (value : α) : List α :=
  if values.any fun v => name v = name value then
    values.map fun v => if name v = name value then value else v
  else values ++ [value]

/-- The templates that it extends, as far as they are there, and the template itself. -/
def resolvedTemplates (template : CaseManagementTemplate V)
    (allTemplates : String → Option (CaseManagementTemplate V)) : List (CaseManagementTemplate V) :=
  (template.extends.getD []).filterMap allTemplates ++ [template]

def resolvedEntityTypes (template : CaseManagementTemplate V)
    (allTemplates : String → Option (CaseManagementTemplate V)) : List (EntityTypeTemplate V) :=
  ((resolvedTemplates template allTemplates).flatMap fun t => t.entityTypes.getD []).foldl
    (setNamed EntityTypeTemplate.name) []

def resolvedRelationships (template : CaseManagementTemplate V)
    (allTemplates : String → Option (CaseManagementTemplate V)) :
    List (RelationshipTypeTemplate V) :=
  (resolvedTemplates template allTemplates).flatMap fun t => t.relationshipTypes.getD []

def resolvedReportTypes (template : CaseManagementTemplate V)
    (allTemplates : String → Option (CaseManagementTemplate V)) : List (ReportTypeTemplate V) :=
  ((resolvedTemplates template allTemplates).flatMap fun t => t.reportTypes.getD []).foldl
    (setNamed ReportTypeTemplate.name) []

theorem map_setNamed {α : Type} (name : α → String) (values : List α) (value : α) :
    (setNamed name values value).map name =
      if name value ∈ values.map name then values.map name else values.map name ++ [name value] := by
  have hany : (values.any fun v => name v = name value) = true ↔ name value ∈ values.map name := by
    simp
  have hmap : (values.map fun v => if name v = name value then value else v).map name =
      values.map name := by
    rw [List.map_map]
    refine List.map_congr_left fun v _ => ?_
    rw [Function.comp_apply]
    split_ifs with h
    · exact h.symm
    · rfl
  unfold setNamed
  split_ifs with h h' h'
  · exact hmap
  · exact absurd (hany.mp h) h'
  · exact absurd (hany.mpr h') h
  · rw [List.map_append, List.map_singleton]

/-- Values that are set under their names have distinct names. -/
theorem nodup_foldl_setNamed {α : Type} (name : α → String) (new : List α) {values : List α}
    (h : (values.map name).Nodup) : ((new.foldl (setNamed name) values).map name).Nodup := by
  induction new generalizing values with
  | nil => exact h
  | cons value new ih =>
    refine ih ?_
    rw [map_setNamed]
    split_ifs with hmem
    · exact h
    · exact List.nodup_append.mpr ⟨h, List.nodup_singleton _, by simpa using hmem⟩

theorem nodup_resolvedEntityTypes (template : CaseManagementTemplate V)
    (allTemplates : String → Option (CaseManagementTemplate V)) :
    ((resolvedEntityTypes template allTemplates).map EntityTypeTemplate.name).Nodup :=
  nodup_foldl_setNamed _ _ List.nodup_nil

theorem nodup_resolvedReportTypes (template : CaseManagementTemplate V)
    (allTemplates : String → Option (CaseManagementTemplate V)) :
    ((resolvedReportTypes template allTemplates).map ReportTypeTemplate.name).Nodup :=
  nodup_foldl_setNamed _ _ List.nodup_nil

/-! ## Converting them -/

/-- What a conversion is about: the template, the hub, the time and the random ids. -/
structure Context (V : Type) where
  template : CaseManagementTemplate V
  hubId : String
  now : String
  uuid : Nat → String

variable (ctx : Context V)

def resolveLabel (ref : String) : String :=
  ((ctx.template.labels.find? fun label => label.1 = ref).map Prod.snd).getD ref

/-- A value that is true in a condition. -/
def truthy (value : Option String) : Option String := value.filter (· ≠ "")

/-- The field at a place of its type, with its id. -/
def makeField (place : Nat) (field : FieldTemplate V) (id : String) : EntityFieldDefinition V where
  id := id
  name := field.name
  label := resolveLabel ctx field.label
  type := field.type
  required := field.required.getD false
  options := field.options
  «section» := field.section.map fun text => if text = "" then text else resolveLabel ctx text
  helpText := field.helpText.map fun text => if text = "" then text else resolveLabel ctx text
  order := field.order.getD place
  indexable := field.indexable.getD false
  indexType := field.indexType.getD .none
  accessLevel := field.accessLevel.getD .all
  visibleToUsers := true
  editableByUsers := true
  showWhen := field.showWhen
  templateId := ctx.template.id
  hubEditable := field.hubEditable.getD true
  createdAt := ctx.now

/-- The fields of an entity type from a place on; `next` is the number of the next random id. -/
def convertFields (existingFieldIds : String → Option String) :
    Nat → Nat → List (FieldTemplate V) → List (EntityFieldDefinition V) × Nat
  | _, next, [] => ([], next)
  | place, next, field :: fields =>
    let (id, next) := match existingFieldIds field.name with
      | some id => (id, next)
      | none => (ctx.uuid next, next + 1)
    let (rest, next) := convertFields existingFieldIds (place + 1) next fields
    (makeField ctx place field id :: rest, next)

def makeEntityType (templateET : EntityTypeTemplate V) (id : String)
    (fields : List (EntityFieldDefinition V)) (createdAt : String) : EntityTypeDefinition V where
  id := id
  hubId := ctx.hubId
  name := templateET.name
  label := resolveLabel ctx templateET.label
  labelPlural := resolveLabel ctx templateET.labelPlural
  description := resolveLabel ctx templateET.description
  icon := templateET.icon
  color := templateET.color
  category := templateET.category
  templateId := ctx.template.id
  templateVersion := ctx.template.version
  fields := fields
  statuses := templateET.statuses
  defaultStatus := templateET.defaultStatus
  closedStatuses := templateET.closedStatuses
  severities := templateET.severities
  defaultSeverity := templateET.defaultSeverity
  categories := templateET.categories
  contactRoles := templateET.contactRoles
  numberPrefix := templateET.numberPrefix
  numberingEnabled := templateET.numberingEnabled.getD false
  defaultAccessLevel := templateET.defaultAccessLevel.getD .assigned
  piiFields := templateET.piiFields.getD []
  allowSubRecords := templateET.allowSubRecords.getD false
  allowFileAttachments := templateET.allowFileAttachments.getD true
  allowInteractionLinks := templateET.allowInteractionLinks.getD true
  showInNavigation := templateET.showInNavigation.getD true
  showInDashboard := templateET.showInDashboard.getD false
  isArchived := false
  isSystem := false
  autoAssign := false
  autoAssignThreshold := 30
  requiredSpecializations := []
  notifyContactsOnStatusChange := false
  createdAt := createdAt
  updatedAt := ctx.now

/-- `entityNameToId` before the loop: of several existing types with a name, the last one's id. -/
def existingIds (existing : List (EntityTypeDefinition V)) (name : String) : Option String :=
  if name = "contact" then some "contact"
  else (existing.reverse.find? fun e => e.name = name).map EntityTypeDefinition.id

/-- `existingFieldIdsByEntityName`, by the names of the type and of the field. -/
def existingFieldIds (existing : List (EntityTypeDefinition V)) (name fieldName : String) :
    Option String :=
  (existing.reverse.find? fun e => e.name = name).bind fun e =>
    (e.fields.reverse.find? fun f => f.name = fieldName).map EntityFieldDefinition.id

/-- The loop over the entity types, with `entityNameToId`. -/
def convertEntityTypes (existing : List (EntityTypeDefinition V)) :
    (String → Option String) → Nat → List (EntityTypeTemplate V) →
      List (EntityTypeDefinition V) × (String → Option String) × Nat
  | entityNameToId, next, [] => ([], entityNameToId, next)
  | entityNameToId, next, templateET :: types =>
    let existingId := truthy (entityNameToId templateET.name)
    let (id, next) := match existingId with
      | some id => (id, next)
      | none => (ctx.uuid next, next + 1)
    let (fields, next) :=
      convertFields ctx (existingFieldIds existing templateET.name) 0 next templateET.fields
    let createdAt := match existingId with
      | some id => ((existing.find? fun e => e.id = id).map
          EntityTypeDefinition.createdAt).getD ctx.now
      | none => ctx.now
    let (rest, entityNameToId, next) := convertEntityTypes existing
      (Function.update entityNameToId templateET.name (some id)) next types
    (makeEntityType ctx templateET id fields createdAt :: rest, entityNameToId, next)

def makeRelationshipType (rt : RelationshipTypeTemplate V) (id sourceId targetId : String) :
    RelationshipTypeDefinition V where
  id := id
  hubId := ctx.hubId
  sourceEntityTypeId := sourceId
  targetEntityTypeId := targetId
  cardinality := rt.cardinality
  label := rt.label
  reverseLabel := rt.reverseLabel
  sourceLabel := rt.sourceLabel
  targetLabel := rt.targetLabel
  roles := rt.roles
  defaultRole := rt.defaultRole
  cascadeDelete := rt.cascadeDelete.getD false
  required := rt.required.getD false
  templateId := ctx.template.id
  isSystem := false
  createdAt := ctx.now
  updatedAt := ctx.now

/-- The loop over the relationship types. -/
def convertRelationshipTypes (entityNameToId : String → Option String) :
    Nat → List (RelationshipTypeTemplate V) → List (RelationshipTypeDefinition V) × Nat
  | next, [] => ([], next)
  | next, rt :: types =>
    match truthy (entityNameToId rt.sourceEntityTypeName),
      truthy (entityNameToId rt.targetEntityTypeName) with
    | some sourceId, some targetId =>
      let (rest, next') := convertRelationshipTypes entityNameToId (next + 1) types
      (makeRelationshipType ctx rt (ctx.uuid next) sourceId targetId :: rest, next')
    | _, _ => convertRelationshipTypes entityNameToId next types

/-- A field of a report type: an empty text is left out. -/
def makeReportField (place : Nat) (field : FieldTemplate V) (id : String) :
    ReportFieldDefinition V :=
  { makeField ctx place field id with
    «section» := (truthy field.section).map (resolveLabel ctx)
    helpText := (truthy field.helpText).map (resolveLabel ctx)
    supportAudioInput := field.supportAudioInput.getD false }

def convertReportFields :
    Nat → Nat → List (FieldTemplate V) → List (ReportFieldDefinition V) × Nat
  | _, next, [] => ([], next)
  | place, next, field :: fields =>
    let (rest, next') := convertReportFields (place + 1) (next + 1) fields
    (makeReportField ctx place field (ctx.uuid next) :: rest, next')

def makeReportType (templateRT : ReportTypeTemplate V) (id : String)
    (fields : List (ReportFieldDefinition V)) (createdAt : String) : ReportTypeDefinition V where
  id := id
  hubId := ctx.hubId
  name := templateRT.name
  label := resolveLabel ctx templateRT.label
  labelPlural := resolveLabel ctx templateRT.labelPlural
  description := resolveLabel ctx (templateRT.description.getD "")
  icon := templateRT.icon
  color := templateRT.color
  category := "report"
  templateId := ctx.template.id
  templateVersion := ctx.template.version
  fields := fields
  statuses := templateRT.statuses
  defaultStatus := templateRT.defaultStatus
  closedStatuses := templateRT.closedStatuses.getD []
  numberPrefix := templateRT.numberPrefix
  numberingEnabled := templateRT.numberingEnabled.getD false
  allowFileAttachments := templateRT.allowFileAttachments.getD true
  allowCaseConversion := templateRT.allowCaseConversion.getD false
  mobileOptimized := templateRT.mobileOptimized.getD false
  isArchived := false
  isSystem := false
  createdAt := createdAt
  updatedAt := ctx.now

/-- The loop over the report types. -/
def convertReportTypes (existing : List (ReportTypeDefinition V)) :
    Nat → List (ReportTypeTemplate V) → List (ReportTypeDefinition V) × Nat
  | next, [] => ([], next)
  | next, templateRT :: types =>
    let existingRT := existing.find? fun e => e.name = templateRT.name
    let (id, next) := match truthy (existingRT.map ReportTypeDefinition.id) with
      | some id => (id, next)
      | none => (ctx.uuid next, next + 1)
    let (fields, next) := convertReportFields ctx 0 next templateRT.fields
    let createdAt := (existingRT.map ReportTypeDefinition.createdAt).getD ctx.now
    let (rest, next) := convertReportTypes existing next types
    (makeReportType ctx templateRT id fields createdAt :: rest, next)

/-- `applyTemplate`, from the random id with the number `next` on; with the number of the next
one. -/
def applyTemplate (allTemplates : String → Option (CaseManagementTemplate V))
    (existingEntityTypes : List (EntityTypeDefinition V))
    (existingReportTypes : List (ReportTypeDefinition V)) (next : Nat) : Applied V × Nat :=
  let (entityTypes, entityNameToId, next) := convertEntityTypes ctx existingEntityTypes
    (existingIds existingEntityTypes) next (resolvedEntityTypes ctx.template allTemplates)
  let (relationshipTypes, next) := convertRelationshipTypes ctx entityNameToId next
    (resolvedRelationships ctx.template allTemplates)
  let (reportTypes, next) := convertReportTypes ctx existingReportTypes next
    (resolvedReportTypes ctx.template allTemplates)
  ({ entityTypes
     relationshipTypes
     reportTypes
     appliedRecord :=
      { templateId := ctx.template.id
        templateVersion := ctx.template.version
        appliedAt := ctx.now
        entityTypeIds := entityTypes.map EntityTypeDefinition.id
        relationshipTypeIds := relationshipTypes.map RelationshipTypeDefinition.id
        reportTypeIds := reportTypes.map ReportTypeDefinition.id } }, next)

end Llamenos.Worker.Templates

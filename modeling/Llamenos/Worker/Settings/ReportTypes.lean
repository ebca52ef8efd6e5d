import Llamenos.Lib.Runs
import Llamenos.Worker.Runtime

/-!
# The report types

The report types are a JSON list in the row of the settings. One of them is the default, which a
form shows first; one that is archived is shown no more. Each call reads the list, changes it, and
stores it; a call that throws stores nothing.

Results:
* `createReportType_lawful`, `archiveReportType_lawful`: what these calls store has one default, an
  active one, if what they have read had.
* `updateReportType_lawful`: what an update makes of the default.
* `reportTypes_iff`: **one report type is the default, and it is active**, in every state of a run
  from the seeded list on, exactly if no update takes the flag from the default, or gives it to an
  archived type.
-/

namespace Llamenos.Worker.Settings.ReportTypes

open Llamenos.Lib

variable {F : Type}

/-! ## The calls -/

/-- A flag that is not set is `false`. -/
structure ReportType (F : Type) where
  id : String
  name : String
  description : String
  icon : Option String
  fields : List F
  isDefault : Bool
  isArchived : Bool
  createdAt : String
  updatedAt : String

/-- What the calls read of a `Partial<ReportType>`. -/
structure Data (F : Type) where
  name : Option String
  description : Option String
  icon : Option String
  fields : Option (List F)
  isDefault : Option Bool

structure ServiceError where
  status : Nat
  message : String

def MAX_CUSTOM_FIELDS : Nat := 20
def MAX_REPORT_TYPES : Nat := 50
def MAX_REPORT_TYPE_NAME_LENGTH : Nat := 100
def MAX_REPORT_TYPE_DESCRIPTION_LENGTH : Nat := 500

/-- The name, the description, the icon, and whether it is the default. -/
def DEFAULT_REPORT_TYPES : List (String × String × String × Bool) :=
  [("Incident Report", "Document a specific incident or event that occurred.",
      "alert-triangle", true),
    ("Field Observation", "Record observations from the field or community.", "eye", false),
    ("Evidence", "Submit evidence documentation (photos, files, recordings).", "camera", false),
    ("Other", "General report that does not fit other categories.", "file-text", false)]

/-- `getReportTypes` seeds an empty list; `ids` are the random ones. -/
def getReportTypes (ids : Nat → String) (now : String) (reportTypes : List (ReportType F)) :
    List (ReportType F) :=
  if reportTypes.isEmpty then
    DEFAULT_REPORT_TYPES.mapIdx fun i (name, description, icon, isDefault) =>
      { id := ids i, name, description, icon := some icon, fields := [], isDefault,
        isArchived := false, createdAt := now, updatedAt := now }
  else reportTypes

def nameTooLong : ServiceError :=
  ⟨400, s!"Name too long (max {MAX_REPORT_TYPE_NAME_LENGTH} chars)"⟩

def descriptionTooLong : ServiceError :=
  ⟨400, s!"Description too long (max {MAX_REPORT_TYPE_DESCRIPTION_LENGTH} chars)"⟩

def tooManyFields : ServiceError :=
  ⟨400, s!"Maximum {MAX_CUSTOM_FIELDS} fields per report type"⟩

/-- `text.length`. -/
def textLength (text : String) : Nat := (charCodes text).length

/-- `for (const rt of reportTypes) rt.isDefault = false`. -/
def clearDefaults (reportTypes : List (ReportType F)) : List (ReportType F) :=
  reportTypes.map fun rt => { rt with isDefault := false }

/-- `value || undefined`. -/
def orUndefined (text : String) : Option String := if text = "" then none else some text

/-- The list that is stored, and the new type. -/
def createReportType (data : Data F) (id now : String) (reportTypes : List (ReportType F)) :
    Except ServiceError (List (ReportType F) × ReportType F) :=
  let name := data.name.getD ""
  let description := data.description.getD ""
  let fields := data.fields.getD []
  let isDefault := data.isDefault.getD false
  if trim name = "" then .error ⟨400, "Name is required"⟩
  else if textLength name > MAX_REPORT_TYPE_NAME_LENGTH then .error nameTooLong
  else if textLength description > MAX_REPORT_TYPE_DESCRIPTION_LENGTH then .error descriptionTooLong
  else if (reportTypes.filter fun rt => !rt.isArchived).length ≥ MAX_REPORT_TYPES then
    .error ⟨400, s!"Maximum {MAX_REPORT_TYPES} active report types"⟩
  else if fields.length > MAX_CUSTOM_FIELDS then .error tooManyFields
  else
    let reportType : ReportType F :=
      { id, name := trim name, description := trim description,
        icon := data.icon.bind orUndefined, fields, isDefault, isArchived := false,
        createdAt := now, updatedAt := now }
    .ok ((if isDefault then clearDefaults reportTypes else reportTypes) ++ [reportType], reportType)

/-- The first type that meets the condition, and its index. -/
def findType (p : ReportType F → Bool) (reportTypes : List (ReportType F)) :
    Option (Nat × ReportType F) :=
  (reportTypes.findIdx? p).bind fun idx => (reportTypes[idx]?).map (idx, ·)

def notFound : ServiceError := ⟨404, "Report type not found"⟩

/-- The first of the checks of `updateReportType` that fails; what is set before it is not stored.
-/
def checkUpdate (data : Data F) : Option ServiceError :=
  if data.name.any fun name => trim name = "" then some ⟨400, "Name cannot be empty"⟩
  else if data.name.any fun name => textLength name > MAX_REPORT_TYPE_NAME_LENGTH then
    some nameTooLong
  else if data.description.any fun text => textLength text > MAX_REPORT_TYPE_DESCRIPTION_LENGTH then
    some descriptionTooLong
  else if data.fields.any fun fields => fields.length > MAX_CUSTOM_FIELDS then some tooManyFields
  else none

/-- The type after an update. -/
def updated (data : Data F) (now : String) (rt : ReportType F) : ReportType F :=
  { rt with
    name := (data.name.map trim).getD rt.name
    description := (data.description.map trim).getD rt.description
    icon := (data.icon.map orUndefined).getD rt.icon
    fields := data.fields.getD rt.fields
    isDefault := data.isDefault.getD rt.isDefault
    updatedAt := now }

def updateReportType (id : String) (data : Data F) (now : String)
    (reportTypes : List (ReportType F)) :
    Except ServiceError (List (ReportType F) × ReportType F) :=
  match findType (·.id = id) reportTypes with
  | none => .error notFound
  | some (idx, rt) =>
    match checkUpdate data with
    | some error => .error error
    | none =>
      let others := if data.isDefault = some true then clearDefaults reportTypes else reportTypes
      .ok (others.set idx (updated data now rt), updated data now rt)

def archiveReportType (id now : String) (reportTypes : List (ReportType F)) :
    Except ServiceError (List (ReportType F)) :=
  match findType (·.id = id) reportTypes with
  | none => .error notFound
  | some (idx, rt) =>
    let activeCount := (reportTypes.filter fun rt => !rt.isArchived).length
    if activeCount ≤ 1 ∧ !rt.isArchived then
      .error ⟨400, "Cannot archive the last active report type"⟩
    else
      let archived := reportTypes.set idx
        { rt with isArchived := true, isDefault := false, updatedAt := now }
      if archived.any fun rt => rt.isDefault && !rt.isArchived then .ok archived
      else match findType (!·.isArchived) archived with
        | none => .ok archived
        | some (first, firstActive) =>
          .ok (archived.set first { firstActive with isDefault := true })

inductive Event (F : Type) where
  | create (data : Data F) (id now : String)
  | update (id : String) (data : Data F) (now : String)
  | archive (id now : String)

/-- The list that is stored after a call. -/
def step (reportTypes : List (ReportType F)) : Event F → Option (List (ReportType F))
  | .create data id now => some (match createReportType data id now reportTypes with
    | .ok (stored, _) => stored
    | .error _ => reportTypes)
  | .update id data now => some (match updateReportType id data now reportTypes with
    | .ok (stored, _) => stored
    | .error _ => reportTypes)
  | .archive id now => some (match archiveReportType id now reportTypes with
    | .ok stored => stored
    | .error _ => reportTypes)

/-- At least one type is active, exactly one is the default, and it is active. -/
structure Lawful (reportTypes : List (ReportType F)) : Prop where
  active : ∃ rt ∈ reportTypes, rt.isArchived = false
  oneDefault : reportTypes.countP (·.isDefault) = 1
  defaultActive : ∀ rt ∈ reportTypes, rt.isDefault = true → rt.isArchived = false

/-- An update does not take the flag from the default, nor give it to an archived type. -/
def KeepsDefault (reportTypes : List (ReportType F)) : Event F → Prop
  | .update id data _ => checkUpdate data = none → ∀ found ∈ findType (·.id = id) reportTypes,
      (data.isDefault = some false → found.2.isDefault = false) ∧
        (data.isDefault = some true → found.2.isArchived = false)
  | .create _ _ _ | .archive _ _ => True

instance (reportTypes : List (ReportType F)) (e : Event F) :
    Decidable (KeepsDefault reportTypes e) :=
  match e with
  | .update id data now => by unfold KeepsDefault; infer_instance
  | .create _ _ _ => isTrue trivial
  | .archive _ _ => isTrue trivial

variable {reportTypes stored : List (ReportType F)} {rt rt' : ReportType F} {id now : String}
  {data : Data F} {idx : Nat} {e : Event F}

/-! ## The flags -/

/-- The types that are both the default and archived. -/
abbrev Misplaced (rt : ReportType F) : Bool := rt.isDefault && rt.isArchived

/-- **One default, and none that is archived**: an active one is then there. -/
theorem lawful_iff_counts : Lawful reportTypes ↔
    reportTypes.countP (·.isDefault) = 1 ∧ reportTypes.countP Misplaced = 0 := by
  have hplaced : reportTypes.countP Misplaced = 0 ↔
      ∀ rt ∈ reportTypes, rt.isDefault = true → rt.isArchived = false := by
    rw [List.countP_eq_zero]
    simp [Misplaced]
  constructor
  · exact fun h => ⟨h.oneDefault, hplaced.mpr h.defaultActive⟩
  · rintro ⟨hone, hnone⟩
    obtain ⟨rt, hrt, hdefault⟩ := List.countP_pos_iff.mp (hone ▸ Nat.one_pos)
    exact ⟨⟨rt, hrt, hplaced.mp hnone rt hrt hdefault⟩, hone, hplaced.mp hnone⟩

theorem countP_clearDefaults (p : ReportType F → Bool)
    (hp : ∀ rt : ReportType F, p { rt with isDefault := false } = false) :
    (clearDefaults reportTypes).countP p = 0 := by
  rw [clearDefaults, List.countP_map, List.countP_eq_zero]
  simp [hp]

theorem findType_eq_some {p : ReportType F → Bool} (h : findType p reportTypes = some (idx, rt)) :
    (∃ hidx : idx < reportTypes.length, reportTypes[idx] = rt) ∧ p rt = true := by
  obtain ⟨i, hi, hrt⟩ := Option.bind_eq_some_iff.mp h
  obtain ⟨rt', hget, hpair⟩ := Option.map_eq_some_iff.mp hrt
  obtain ⟨rfl, rfl⟩ := Prod.mk.inj hpair
  obtain ⟨hidx, hget⟩ := List.getElem?_eq_some_iff.mp hget
  obtain ⟨_, hp, -⟩ := List.findIdx?_eq_some_iff_getElem.mp hi
  exact ⟨⟨hidx, hget⟩, hget ▸ hp⟩

theorem findType_eq_none {p : ReportType F → Bool} (h : findType p reportTypes = none) :
    ∀ rt ∈ reportTypes, p rt = false := by
  rw [findType, Option.bind_eq_none_iff] at h
  refine List.findIdx?_eq_none_iff.mp ?_
  by_contra hsome
  obtain ⟨i, hi⟩ := Option.ne_none_iff_exists'.mp hsome
  obtain ⟨hlt, -, -⟩ := List.findIdx?_eq_some_iff_getElem.mp hi
  have hget := h i hi
  rw [Option.map_eq_none_iff, List.getElem?_eq_none_iff] at hget
  omega

/-- The flags of a list, after a type has been set. -/
theorem countP_setType (p : ReportType F → Bool) (rt' : ReportType F)
    (hidx : idx < reportTypes.length) (hrt : reportTypes[idx] = rt) :
    (reportTypes.set idx rt').countP p + (p rt).toNat = reportTypes.countP p + (p rt').toNat := by
  have hpos : (p rt).toNat ≤ reportTypes.countP p := by
    cases hp : p rt with
    | false => exact Nat.zero_le _
    | true => exact List.countP_pos_iff.mpr ⟨rt, hrt ▸ List.getElem_mem hidx, hp⟩
  have hset := List.countP_set (p := p) (a := rt') hidx
  have htoNat : ∀ b : Bool, (if b = true then 1 else 0) = b.toNat := by decide
  rw [hrt, htoNat, htoNat] at hset
  omega

/-- **A type is set**, in a list where none is misplaced. -/
theorem lawful_set (hidx : idx < reportTypes.length) (hrt : reportTypes[idx] = rt)
    (hnone : reportTypes.countP Misplaced = 0) (rt' : ReportType F) :
    Lawful (reportTypes.set idx rt') ↔
      reportTypes.countP (·.isDefault) + rt'.isDefault.toNat = 1 + rt.isDefault.toNat ∧
        Misplaced rt' = false := by
  have hdefault := countP_setType (·.isDefault) rt' hidx hrt
  have hmisplaced := countP_setType Misplaced rt' hidx hrt
  have hplaced : Misplaced rt = false := by
    have hmem : rt ∈ reportTypes := hrt ▸ List.getElem_mem hidx
    simpa using List.countP_eq_zero.mp hnone rt hmem
  rw [hplaced, hnone, Bool.toNat_false] at hmisplaced
  rw [lawful_iff_counts, ← Bool.toNat_eq_zero]
  omega

/-! ## The calls keep the default -/

/-- **A new type** becomes the only default, or leaves it. -/
theorem createReportType_lawful (hlawful : Lawful reportTypes)
    (h : createReportType data id now reportTypes = .ok (stored, rt)) : Lawful stored := by
  rw [lawful_iff_counts] at hlawful ⊢
  unfold createReportType at h
  dsimp only at h
  split_ifs at h with _ _ _ _ _ hdefault
  · rw [← (Prod.mk.inj (Except.ok.inj h)).1, List.countP_append, List.countP_append,
      countP_clearDefaults _ fun _ => rfl, countP_clearDefaults _ fun _ => rfl]
    simp [hdefault]
  · rw [← (Prod.mk.inj (Except.ok.inj h)).1, List.countP_append, List.countP_append]
    simpa [hdefault] using hlawful

theorem updateReportType_eq_ok :
    updateReportType id data now reportTypes = .ok (stored, rt') ↔
      ∃ idx rt, findType (·.id = id) reportTypes = some (idx, rt) ∧ checkUpdate data = none ∧
        stored = (if data.isDefault = some true then clearDefaults reportTypes
          else reportTypes).set idx rt' ∧ rt' = updated data now rt := by
  unfold updateReportType
  cases hfind : findType (·.id = id) reportTypes with
  | none => simp
  | some found =>
    cases checkUpdate data with
    | some error => simp
    | none =>
      obtain ⟨idx, rt⟩ := found
      simp only [Except.ok.injEq, Prod.mk.injEq, Option.some.injEq]
      constructor
      · rintro ⟨rfl, rfl⟩
        exact ⟨idx, rt, ⟨rfl, rfl⟩, trivial, rfl, rfl⟩
      · rintro ⟨_, _, ⟨rfl, rfl⟩, -, rfl, rfl⟩
        exact ⟨rfl, rfl⟩

/-- **An update** leaves one default, and an active one, exactly if it does not take the flag from
the default, nor give it to an archived type. -/
theorem updateReportType_lawful (hlawful : Lawful reportTypes)
    (hfind : findType (·.id = id) reportTypes = some (idx, rt))
    (h : updateReportType id data now reportTypes = .ok (stored, rt')) :
    Lawful stored ↔ (data.isDefault = some false → rt.isDefault = false) ∧
      (data.isDefault = some true → rt.isArchived = false) := by
  obtain ⟨⟨hidx, hrt⟩, -⟩ := findType_eq_some hfind
  obtain ⟨hone, hnone⟩ := lawful_iff_counts.mp hlawful
  obtain ⟨idx', rt₀, hfind', -, rfl, rfl⟩ := updateReportType_eq_ok.mp h
  rw [hfind, Option.some.injEq, Prod.mk.injEq] at hfind'
  obtain ⟨rfl, rfl⟩ := hfind'
  have harchived : (updated data now rt).isArchived = rt.isArchived := rfl
  rcases hset : data.isDefault with _ | _ | _
  · -- the flags stay as they are
    have hplaced : Misplaced rt = false := by
      have hmem : rt ∈ reportTypes := hrt ▸ List.getElem_mem hidx
      simpa using List.countP_eq_zero.mp hnone rt hmem
    have hdefault : (updated data now rt).isDefault = rt.isDefault := by rw [updated, hset]; rfl
    rw [if_neg (by simp), lawful_set hidx hrt hnone, hone, Misplaced, hdefault, harchived]
    simpa using hplaced
  · have hdefault : (updated data now rt).isDefault = false := by rw [updated, hset]; rfl
    rw [if_neg (by simp), lawful_set hidx hrt hnone, hone, Misplaced, hdefault]
    cases rt.isDefault <;> simp
  · have hdefault : (updated data now rt).isDefault = true := by rw [updated, hset]; rfl
    have hlength : idx < (clearDefaults reportTypes).length := by
      rw [clearDefaults, List.length_map]
      exact hidx
    have hcleared : (clearDefaults reportTypes)[idx] = { rt with isDefault := false } := by
      simp only [clearDefaults, List.getElem_map, hrt]
    rw [if_pos rfl, lawful_set hlength hcleared (countP_clearDefaults _ fun _ => rfl),
      countP_clearDefaults _ fun _ => rfl, Misplaced, hdefault, harchived]
    simp

/-- **An archived type** hands the flag to the first active one, if there is no other default. -/
theorem archiveReportType_lawful (hlawful : Lawful reportTypes)
    (h : archiveReportType id now reportTypes = .ok stored) : Lawful stored := by
  obtain ⟨hone, hnone⟩ := lawful_iff_counts.mp hlawful
  unfold archiveReportType at h
  cases hfind : findType (·.id = id) reportTypes with
  | none =>
    rw [hfind] at h
    cases h
  | some found =>
    obtain ⟨idx, rt⟩ := found
    obtain ⟨⟨hidx, hrt⟩, -⟩ := findType_eq_some hfind
    rw [hfind] at h
    dsimp only at h
    generalize hnew : ({ rt with isArchived := true, isDefault := false, updatedAt := now } :
      ReportType F) = rt' at h
    have hdefault' : rt'.isDefault = false := by rw [← hnew]
    have harchived' : rt'.isArchived = true := by rw [← hnew]
    have hdefault := countP_setType (·.isDefault) rt' hidx hrt
    have hmisplaced := countP_setType Misplaced rt' hidx hrt
    have hactive := countP_setType (!·.isArchived) rt' hidx hrt
    simp only [hone, hnone, Misplaced, hdefault', harchived', Bool.false_and, Bool.not_true,
      Bool.toNat_false] at hdefault hmisplaced hactive
    have hnone' : (reportTypes.set idx rt').countP Misplaced = 0 := by omega
    split_ifs at h with hlast hany
    · -- another type is the default
      obtain rfl := Except.ok.inj h
      obtain ⟨other, hother, hflags⟩ := List.any_eq_true.mp hany
      have hpos : 0 < (reportTypes.set idx rt').countP (·.isDefault) :=
        List.countP_pos_iff.mpr ⟨other, hother, (Bool.and_eq_true_iff.mp hflags).1⟩
      exact lawful_iff_counts.mpr ⟨by omega, hnone'⟩
    · have hzero : (reportTypes.set idx rt').countP (·.isDefault) = 0 := by
        rw [List.countP_eq_zero]
        intro other hother hflag
        have hplaced := List.countP_eq_zero.mp hnone' other hother
        refine hany (List.any_eq_true.mpr ⟨other, hother, ?_⟩)
        simpa [Misplaced, hflag] using hplaced
      have hwas : rt.isDefault = true := by
        rw [← Bool.toNat_eq_one]
        omega
      split at h
      next hnoneActive =>
        -- the type was active, and not the last active one
        have hempty : (reportTypes.set idx rt').countP (!·.isArchived) = 0 := by
          rw [List.countP_eq_zero]
          intro other hother
          simp [findType_eq_none hnoneActive other hother]
        have hmem : rt ∈ reportTypes := hrt ▸ List.getElem_mem hidx
        have hwasActive := hlawful.defaultActive rt hmem hwas
        rw [hwasActive, ← List.countP_eq_length_filter] at hlast
        rw [hwasActive, hempty] at hactive
        simp at hlast hactive
        omega
      next first firstActive hfirst =>
        obtain rfl := Except.ok.inj h
        obtain ⟨⟨hlt, hget⟩, hnotArchived⟩ := findType_eq_some hfirst
        have hplain : firstActive.isDefault = false := by
          have hmem : firstActive ∈ reportTypes.set idx rt' := hget ▸ List.getElem_mem hlt
          simpa using List.countP_eq_zero.mp hzero firstActive hmem
        rw [lawful_set hlt hget hnone', hzero, hplain, Misplaced]
        simpa using hnotArchived

/-! ## Runs -/

theorem seeded_lawful (ids : Nat → String) (now : String) :
    Lawful (getReportTypes ids now ([] : List (ReportType F))) := by
  refine lawful_iff_counts.mpr ⟨?_, ?_⟩ <;>
    simp [getReportTypes, DEFAULT_REPORT_TYPES, List.mapIdx_cons, Misplaced]

theorem lawful_step (hlawful : Lawful reportTypes) (h : step reportTypes e = some stored) :
    Lawful stored ↔ KeepsDefault reportTypes e := by
  cases e with
  | create data id now =>
    obtain rfl := Option.some.inj h
    refine iff_of_true ?_ trivial
    split
    next stored reportType hok => exact createReportType_lawful hlawful hok
    next => exact hlawful
  | archive id now =>
    obtain rfl := Option.some.inj h
    refine iff_of_true ?_ trivial
    split
    next stored hok => exact archiveReportType_lawful hlawful hok
    next => exact hlawful
  | update id data now =>
    obtain rfl := Option.some.inj h
    dsimp only [KeepsDefault]
    split
    next stored reportType hok =>
      obtain ⟨idx, rt, hfind, hcheck, -, -⟩ := updateReportType_eq_ok.mp hok
      rw [updateReportType_lawful hlawful hfind hok, hfind, hcheck]
      simp
    next error herror =>
      refine iff_of_true hlawful fun hcheck found hfound => ?_
      rw [updateReportType, Option.mem_def.mp hfound, hcheck] at herror
      cases herror

/-- **One report type is the default, and it is active**, in every state of a run from the seeded
list on, exactly if no update takes the flag from the default, or gives it to an archived type. -/
theorem reportTypes_iff {ids : Nat → String} {es : List (Event F)}
    (h : Runs.run step (getReportTypes ids now []) es = some stored) :
    (∀ before after m, es = before ++ after →
        Runs.run step (getReportTypes ids now []) before = some m → Lawful m) ↔
      Runs.Along step KeepsDefault (getReportTypes ids now []) es :=
  Runs.inv_iff_along (I := fun _ => True) (fun _ _ _ _ _ => trivial)
    (fun _ _ _ _ hlawful hstep => lawful_step hlawful hstep) trivial (seeded_lawful ids now) h

/-- What an update is given that sets nothing but the flag. -/
def flagOnly (isDefault : Bool) : Data String := ⟨none, none, none, none, some isDefault⟩

/-- The default is archived, a new one comes, and another takes its place. -/
theorem handed_on :
    ∃ stored, Runs.run step (getReportTypes toString "t0" ([] : List (ReportType String)))
        [.archive "0" "t1", .create ⟨some "Legal", none, none, none, some true⟩ "4" "t2",
          .update "2" (flagOnly true) "t3"] = some stored ∧ Lawful stored := by
  obtain ⟨stored, hrun⟩ : ∃ stored,
      Runs.run step (getReportTypes toString "t0" ([] : List (ReportType String)))
        [.archive "0" "t1", .create ⟨some "Legal", none, none, none, some true⟩ "4" "t2",
          .update "2" (flagOnly true) "t3"] = some stored := ⟨_, rfl⟩
  refine ⟨stored, hrun, ?_⟩
  exact (reportTypes_iff hrun).mpr (by decide +kernel) _ [] stored (List.append_nil _).symm hrun

/-- The flag is taken from the default, and no type has it; or it is given to an archived type. -/
theorem default_lost :
    (∃ stored, Runs.run step (getReportTypes toString "t0" ([] : List (ReportType String)))
        [.update "0" (flagOnly false) "t1"] = some stored ∧ ¬ Lawful stored) ∧
      ∃ stored, Runs.run step (getReportTypes toString "t0" ([] : List (ReportType String)))
        [.archive "1" "t1", .update "1" (flagOnly true) "t2"] = some stored ∧ ¬ Lawful stored := by
  refine ⟨⟨_, rfl, fun hlawful => ?_⟩, _, rfl, fun hlawful => ?_⟩
  · exact absurd hlawful.oneDefault (by decide +kernel)
  · exact absurd hlawful.defaultActive (by decide +kernel)

end Llamenos.Worker.Settings.ReportTypes

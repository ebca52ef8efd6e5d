import Llamenos.Lib.Tables
import Llamenos.Worker.Templates
import Mathlib.Data.List.Forall2
import Mathlib.Data.List.Pairwise

/-!
# A template that is applied again

An entity type that is there by its name keeps its id, and so does a field of it; a report type
keeps its id. A relationship type gets a new id each time, and so does a field of a report type. Of
several fields with one name, the last one's id is found for all of them.

Results:
* `entityTypes_again`: what becomes of the entity types when a template is applied again.
* `sameName_iff`: when fields with one name have one id.
* `reapplied_iff`: **a template that is applied again gives the same ids exactly if it makes no
  relationship type and no report field, and no two new fields of an entity type with one name; and
  the same definitions exactly if there are also no entity fields, or no time has passed**.
* `arrests_renewed`: a template with a relationship type, a report field and a repeated name.
-/

namespace Llamenos.Worker.Templates

open Llamenos.Lib

variable {V : Type} {ctx : Context V}

/-! ## Random ids -/

/-- The random ids are new. -/
structure Fresh (uuid : Nat → String) (existing : List (EntityTypeDefinition V)) : Prop where
  injective : Function.Injective uuid
  nonempty : ∀ k, uuid k ≠ ""
  contact : ∀ k, uuid k ≠ "contact"
  existing : ∀ k, ∀ e ∈ existing, e.id ≠ uuid k

/-- A random id with a number from `first` on, before `next`. -/
def Minted (uuid : Nat → String) (first next : Nat) (id : String) : Prop :=
  ∃ k, first ≤ k ∧ k < next ∧ id = uuid k

theorem Minted.mono {uuid : Nat → String} {first next first' next' : Nat} {id : String}
    (h : Minted uuid first next id) (hfirst : first' ≤ first) (hnext : next ≤ next') :
    Minted uuid first' next' id := by
  obtain ⟨k, hk, hk', rfl⟩ := h
  exact ⟨k, by omega, by omega, rfl⟩

/-- Ids that have been minted one after the other are distinct. -/
theorem Minted.ne {uuid : Nat → String} (huuid : Function.Injective uuid)
    {first next first' next' : Nat} {id id' : String} (h : Minted uuid first next id)
    (h' : Minted uuid first' next' id') (hle : next ≤ first') : id ≠ id' := by
  obtain ⟨k, -, hk, rfl⟩ := h
  obtain ⟨k', hk', -, rfl⟩ := h'
  intro heq
  have := huuid heq
  omega

theorem truthy_eq_some {value : Option String} {text : String} :
    truthy value = some text ↔ value = some text ∧ text ≠ "" := by
  cases value with
  | none => simp [truthy]
  | some v =>
    rw [truthy, Option.filter_some]
    by_cases hv : v = ""
    · simp [hv, eq_comm]
    · rw [if_pos (by simpa using hv)]
      constructor
      · rintro h
        cases h
        exact ⟨rfl, hv⟩
      · exact fun h => h.1

/-- What holds of the members of two lists, pair by pair. -/
theorem forall_mem_iff {α β : Type} {R : α → β → Prop} {P : α → Prop} {Q : β → Prop} {as : List α}
    {bs : List β} (h : List.Forall₂ R as bs) (hR : ∀ a b, R a b → (P a ↔ Q b)) :
    (∀ a ∈ as, P a) ↔ ∀ b ∈ bs, Q b := by
  induction h with
  | nil =>
    exact iff_of_true (fun a ha => absurd ha List.not_mem_nil)
      (fun b hb => absurd hb List.not_mem_nil)
  | cons hab _ ih => rw [List.forall_mem_cons, List.forall_mem_cons, hR _ _ hab, ih]

/-! ## Fields -/

theorem convertFields_next_le (ids : String → Option String) (place next : Nat)
    (fields : List (FieldTemplate V)) : next ≤ (convertFields ctx ids place next fields).2 := by
  induction fields generalizing place next with
  | nil => exact Nat.le_refl next
  | cons field fields ih =>
    rw [convertFields]
    cases ids field.name with
    | some id => exact ih (place + 1) next
    | none => exact Nat.le_of_succ_le (ih (place + 1) (next + 1))

theorem convertFields_names (ctx : Context V) (ids : String → Option String) (place next : Nat)
    (fields : List (FieldTemplate V)) :
    (convertFields ctx ids place next fields).1.map EntityFieldDefinition.name =
      fields.map FieldTemplate.name := by
  induction fields generalizing place next with
  | nil => rfl
  | cons field fields ih =>
    rw [convertFields]
    simp only [List.map_cons, ih]
    rfl

variable {f : EntityFieldDefinition V} {fields : List (FieldTemplate V)}

/-- A field has the id that was there by its name, or a new one. -/
theorem mem_convertFields {ids : String → Option String} {place next : Nat}
    (hf : f ∈ (convertFields ctx ids place next fields).1) :
    ids f.name = some f.id ∨ ids f.name = none ∧
      Minted ctx.uuid next (convertFields ctx ids place next fields).2 f.id := by
  induction fields generalizing place next with
  | nil => cases hf
  | cons field fields ih =>
    rw [convertFields] at hf ⊢
    cases hid : ids field.name with
    | some id =>
      rw [hid] at hf
      rcases List.mem_cons.mp hf with rfl | hf
      · exact .inl hid
      · exact ih hf
    | none =>
      rw [hid] at hf
      rcases List.mem_cons.mp hf with rfl | hf
      · exact .inr ⟨hid, next, Nat.le_refl next,
          convertFields_next_le ids (place + 1) (next + 1) fields, rfl⟩
      · exact (ih hf).imp_right fun h => ⟨h.1, h.2.mono (Nat.le_succ next) (Nat.le_refl _)⟩

/-- New fields have distinct ids. -/
theorem convertFields_pairwise (huuid : Function.Injective ctx.uuid) (ids : String → Option String)
    (place next : Nat) (fields : List (FieldTemplate V)) :
    (convertFields ctx ids place next fields).1.Pairwise fun f g =>
      ids f.name = none → ids g.name = none → f.id ≠ g.id := by
  induction fields generalizing place next with
  | nil => exact List.Pairwise.nil
  | cons field fields ih =>
    rw [convertFields]
    cases hid : ids field.name with
    | some id =>
      refine List.pairwise_cons.mpr ⟨fun g _ hnone => ?_, ih (place + 1) next⟩
      cases hid.symm.trans hnone
    | none =>
      refine List.pairwise_cons.mpr ⟨fun g hg _ hnone => ?_, ih (place + 1) (next + 1)⟩
      rcases mem_convertFields hg with hsome | ⟨-, hminted⟩
      · cases hnone.symm.trans hsome
      · have hfirst : Minted ctx.uuid next (next + 1) (ctx.uuid next) :=
          ⟨next, Nat.le_refl next, Nat.lt_succ_self next, rfl⟩
        exact hfirst.ne huuid hminted (Nat.le_refl _)

/-- A field that is converted again, with the id that is found for its name. -/
def againField (now : String) (ids : String → Option String) (f : EntityFieldDefinition V) :
    EntityFieldDefinition V :=
  { f with
    id := (ids f.name).getD f.id
    createdAt := now }

/-- **What becomes of fields** whose names are all found. -/
theorem convertFields_again {ids ids' : String → Option String} {place next : Nat}
    (now : String) (next' : Nat)
    (h : ∀ f ∈ (convertFields ctx ids place next fields).1, (ids' f.name).isSome) :
    convertFields { ctx with now } ids' place next' fields =
      ((convertFields ctx ids place next fields).1.map (againField now ids'), next') := by
  induction fields generalizing place next with
  | nil => rfl
  | cons field fields ih =>
    rw [convertFields] at h ⊢
    rw [convertFields]
    obtain ⟨hfield, hrest⟩ := List.forall_mem_cons.mp h
    obtain ⟨id', hid'⟩ := Option.isSome_iff_exists.mp hfield
    have hname : ids' field.name = some id' := hid'
    rw [hname]
    dsimp only
    rw [ih hrest, List.map_cons]
    congr 2
    rw [againField, hid']
    rfl

/-! ## Entity types -/

/-- When a type with the id was created, if it was there. -/
def createdOf (existing : List (EntityTypeDefinition V)) (now id : String) : String :=
  ((existing.find? fun e => e.id = id).map EntityTypeDefinition.createdAt).getD now

/-- What a type is converted to: with the id that was there, or a new one. -/
inductive Converted (ctx : Context V) (existing : List (EntityTypeDefinition V))
    (ids : String → Option String) (t : EntityTypeTemplate V) : EntityTypeDefinition V → Prop where
  | mk (id : String) (next : Nat)
      (hid : truthy (ids t.name) = some id ∨ truthy (ids t.name) = none ∧ ∃ k, id = ctx.uuid k) :
      Converted ctx existing ids t (makeEntityType ctx t id
        (convertFields ctx (existingFieldIds existing t.name) 0 next t.fields).1
        (createdOf existing ctx.now id))

variable {existing : List (EntityTypeDefinition V)} {ids : String → Option String}
  {t : EntityTypeTemplate V} {e : EntityTypeDefinition V}

theorem Converted.name (h : Converted ctx existing ids t e) : e.name = t.name := by
  cases h
  rfl

theorem Converted.id_ne (hfresh : Fresh ctx.uuid existing) (h : Converted ctx existing ids t e) :
    e.id ≠ "" := by
  obtain ⟨id, next, hid | ⟨-, k, rfl⟩⟩ := h
  · exact (truthy_eq_some.mp hid).2
  · exact hfresh.nonempty k

theorem Converted.createdAt (h : Converted ctx existing ids t e) :
    e.createdAt = createdOf existing ctx.now e.id := by
  cases h
  rfl
variable {types : List (EntityTypeTemplate V)} {es : List (EntityTypeDefinition V)}

theorem converted_names
    (h : List.Forall₂ (Converted ctx existing ids) types es) :
    es.map EntityTypeDefinition.name = types.map EntityTypeTemplate.name := by
  induction h with
  | nil => rfl
  | cons h _ ih => rw [List.map_cons, List.map_cons, h.name, ih]

/-- No type that was there has a new id. -/
theorem createdOf_uuid (hfresh : Fresh ctx.uuid existing) (now : String) (k : Nat) :
    createdOf existing now (ctx.uuid k) = now := by
  have hnone : (existing.find? fun e => e.id = ctx.uuid k) = none :=
    List.find?_eq_none.mpr fun e he => by simpa using hfresh.existing k e he
  rw [createdOf, hnone, Option.map_none, Option.getD_none]

/-- **Every type is converted**, with what `entityNameToId` had for its name. -/
theorem convertEntityTypes_converted (hfresh : Fresh ctx.uuid existing)
    (hnames : (types.map EntityTypeTemplate.name).Nodup)
    {ids' : String → Option String} (hids : ∀ t ∈ types, ids' t.name = ids t.name) (next : Nat) :
    List.Forall₂ (Converted ctx existing ids) types
      (convertEntityTypes ctx existing ids' next types).1 := by
  induction types generalizing ids' next with
  | nil => exact .nil
  | cons t types ih =>
    rw [List.map_cons, List.nodup_cons] at hnames
    obtain ⟨ht, hrest⟩ := List.forall_mem_cons.mp hids
    have hlater (id : String) : ∀ t' ∈ types,
        Function.update ids' t.name (some id) t'.name = ids t'.name := by
      intro t' ht'
      rw [Function.update_of_ne, hrest t' ht']
      exact fun heq => hnames.1 (heq ▸ List.mem_map_of_mem ht')
    rw [convertEntityTypes, ht]
    cases hid : truthy (ids t.name) with
    | some id => exact .cons (.mk id next (.inl hid)) (ih hnames.2 (hlater id) _)
    | none =>
      refine .cons ?_ (ih hnames.2 (hlater _) _)
      have hmk : Converted ctx existing ids t _ :=
        .mk (ctx.uuid next) (next + 1) (.inr ⟨hid, next, rfl⟩)
      rwa [createdOf_uuid hfresh] at hmk

/-- A name that is no type's has the id that it had. -/
theorem convertEntityTypes_other {name : String}
    (h : name ∉ types.map EntityTypeTemplate.name) (ids : String → Option String) (next : Nat) :
    (convertEntityTypes ctx existing ids next types).2.1 name = ids name := by
  induction types generalizing ids next with
  | nil => rfl
  | cons t types ih =>
    rw [List.map_cons, List.mem_cons, not_or] at h
    rw [convertEntityTypes]
    dsimp only
    rw [ih h.2, Function.update_of_ne h.1]

/-- The name of a type that is converted has an id. -/
theorem convertEntityTypes_known (huuid : ∀ k, ctx.uuid k ≠ "") {name : String}
    (h : name ∈ types.map EntityTypeTemplate.name)
    (ids : String → Option String) (next : Nat) :
    (truthy ((convertEntityTypes ctx existing ids next types).2.1 name)).isSome := by
  induction types generalizing ids next with
  | nil => cases h
  | cons t types ih =>
    rw [convertEntityTypes]
    dsimp only
    by_cases hmem : name ∈ types.map EntityTypeTemplate.name
    · exact ih hmem _ _
    · obtain rfl : name = t.name := (List.mem_cons.mp h).resolve_right hmem
      rw [convertEntityTypes_other hmem, Function.update_self, Option.isSome_iff_exists]
      cases hid : truthy (ids t.name) with
      | some id => exact ⟨id, truthy_eq_some.mpr ⟨rfl, (truthy_eq_some.mp hid).2⟩⟩
      | none => exact ⟨_, truthy_eq_some.mpr ⟨rfl, huuid next⟩⟩

/-! ## Entity types that are converted again -/

/-- A type that is converted again, with the ids that are found for its fields' names. -/
def againType (now : String) (existing : List (EntityTypeDefinition V))
    (e : EntityTypeDefinition V) : EntityTypeDefinition V :=
  { e with
    fields := e.fields.map (againField now (existingFieldIds existing e.name))
    updatedAt := now }

theorem convertEntityTypes_again
    {es existing' : List (EntityTypeDefinition V)} {ids' : String → Option String} {now : String}
    (h : List.Forall₂ (Converted ctx existing ids) types es)
    (hnames : (types.map EntityTypeTemplate.name).Nodup)
    (hids : ∀ e ∈ es, truthy (ids' e.name) = some e.id)
    (hfields : ∀ e ∈ es, ∀ f ∈ e.fields, (existingFieldIds existing' e.name f.name).isSome)
    (hcreated : ∀ e ∈ es, createdOf existing' now e.id = e.createdAt) (next : Nat) :
    (convertEntityTypes { ctx with now } existing' ids' next types).1 =
        es.map (againType now existing') ∧
      (convertEntityTypes { ctx with now } existing' ids' next types).2.2 = next := by
  induction h generalizing ids' with
  | nil => exact ⟨rfl, rfl⟩
  | @cons t e types es ht hrest ih =>
    rw [List.map_cons, List.nodup_cons] at hnames
    obtain ⟨hid, hids⟩ := List.forall_mem_cons.mp hids
    obtain ⟨hfield, hfields⟩ := List.forall_mem_cons.mp hfields
    obtain ⟨hcreate, hcreated⟩ := List.forall_mem_cons.mp hcreated
    have hlater : ∀ e' ∈ es,
        truthy (Function.update ids' t.name (some e.id) e'.name) = some e'.id := by
      intro e' he'
      rw [Function.update_of_ne, hids e' he']
      intro heq
      refine hnames.1 ?_
      rw [← converted_names hrest, ← heq]
      exact List.mem_map_of_mem he'
    obtain ⟨hes, hnext⟩ := ih hnames.2 hlater hfields hcreated
    rw [ht.name] at hid
    rw [createdOf] at hcreate
    cases ht with
    | mk id n _ =>
      have hconvert := convertFields_again now next hfield
      rw [convertEntityTypes, hid]
      dsimp only
      have hname : (makeEntityType ctx t id
        (convertFields ctx (existingFieldIds existing t.name) 0 n t.fields).1
        (createdOf existing ctx.now id)).name = t.name := rfl
      rw [hname] at hconvert
      rw [hconvert, hcreate]
      exact ⟨congrArg₂ List.cons rfl hes, hnext⟩

/-- The types that have been converted, by their names. -/
theorem find_converted
    (hnames : (es.map EntityTypeDefinition.name).Nodup) (he : e ∈ es) :
    (es.reverse.find? fun e' => e'.name = e.name) = some e := by
  refine (Tables.lookup_eq_some_iff ?_).mpr ⟨List.mem_reverse.mpr he, rfl⟩
  rw [List.map_reverse]
  exact List.nodup_reverse.mpr hnames

/-- The id of the last field with the name. -/
def lastId (fields : List (EntityFieldDefinition V)) (name : String) : Option String :=
  (fields.reverse.find? fun f => f.name = name).map EntityFieldDefinition.id

theorem existingFieldIds_converted
    (hnames : (es.map EntityTypeDefinition.name).Nodup) (he : e ∈ es) (name : String) :
    existingFieldIds es e.name name = lastId e.fields name := by
  rw [existingFieldIds, find_converted hnames he, Option.bind_some, lastId]

/-- Some field with the name has the id that is found for it. -/
theorem exists_lastId {fields : List (EntityFieldDefinition V)}
    (hf : f ∈ fields) : ∃ g ∈ fields, g.name = f.name ∧ lastId fields f.name = some g.id := by
  unfold lastId
  cases h : fields.reverse.find? fun g => g.name = f.name with
  | none =>
    exact absurd (decide_eq_true rfl) (List.find?_eq_none.mp h f (List.mem_reverse.mpr hf))
  | some g =>
    exact ⟨g, List.mem_reverse.mp (List.mem_of_find?_eq_some h), by simpa using List.find?_some h,
      rfl⟩

/-- The first types, converted again. -/
theorem entityTypes_again (hfresh : Fresh ctx.uuid existing)
    (hnames : (types.map EntityTypeTemplate.name).Nodup)
    (h : List.Forall₂ (Converted ctx existing (existingIds existing)) types es) (now : String)
    (next : Nat) :
    (convertEntityTypes { ctx with now } es (existingIds es) next types).1 =
        es.map (againType now es) ∧
      (convertEntityTypes { ctx with now } es (existingIds es) next types).2.2 = next := by
  have hes : (es.map EntityTypeDefinition.name).Nodup := by rwa [converted_names h]
  have hconverted : ∀ e ∈ es, ∃ t, Converted ctx existing (existingIds existing) t e := by
    clear hnames hes
    induction h with
    | nil => exact fun e he => absurd he List.not_mem_nil
    | cons ht _ ih => exact List.forall_mem_cons.mpr ⟨⟨_, ht⟩, ih⟩
  refine convertEntityTypes_again h hnames (fun e he => ?_) (fun e he f hf => ?_) (fun e he => ?_)
    next
  · obtain ⟨t, ht⟩ := hconverted e he
    refine truthy_eq_some.mpr ⟨?_, ht.id_ne hfresh⟩
    unfold existingIds
    split_ifs with hcontact
    · obtain ⟨id, n, hid⟩ := ht
      have hcontact : t.name = "contact" := hcontact
      have htruthy : truthy (existingIds existing t.name) = some "contact" := by
        rw [hcontact]
        rfl
      rw [htruthy] at hid
      rcases hid with hid | ⟨hid, -⟩
      · exact hid
      · cases hid
    · rw [find_converted hes he, Option.map_some]
  · obtain ⟨g, -, -, hg⟩ := exists_lastId hf
    rw [existingFieldIds_converted hes he, hg]
    rfl
  · unfold createdOf
    cases hfind : es.find? fun e' => e'.id = e.id with
    | none => exact absurd (decide_eq_true rfl) (List.find?_eq_none.mp hfind e he)
    | some e' =>
      obtain ⟨t, ht⟩ := hconverted e he
      obtain ⟨t', ht'⟩ := hconverted e' (List.mem_of_find?_eq_some hfind)
      have hid : e'.id = e.id := by simpa using List.find?_some hfind
      rw [Option.map_some, Option.getD_some, ht'.createdAt, hid, ht.createdAt]

/-! ## Fields that keep their ids -/

/-- Of two fields with one name, the name was there. -/
def RepeatedKnown (known : String → Option String) (fields : List (FieldTemplate V)) : Prop :=
  fields.Pairwise fun f g => f.name = g.name → (known f.name).isSome

/-- The last fields' ids are those of all fields exactly if fields with one name have one id. -/
theorem lastId_eq_iff {fields : List (EntityFieldDefinition V)} :
    (∀ f ∈ fields, lastId fields f.name = some f.id) ↔
      ∀ f ∈ fields, ∀ g ∈ fields, f.name = g.name → f.id = g.id := by
  constructor
  · intro h f hf g hg hname
    have hfid := h f hf
    rw [hname, h g hg] at hfid
    exact (Option.some.inj hfid).symm
  · intro h f hf
    obtain ⟨g, hg, hname, hlast⟩ := exists_lastId hf
    rw [hlast, h g hg f hf hname]

/-- **Fields with one name have one id** exactly if the name was there. -/
theorem sameName_iff (huuid : Function.Injective ctx.uuid) (place next : Nat)
    (fields : List (FieldTemplate V)) :
    (∀ f ∈ (convertFields ctx ids place next fields).1,
      ∀ g ∈ (convertFields ctx ids place next fields).1, f.name = g.name → f.id = g.id) ↔
      RepeatedKnown ids fields := by
  have hpairwise : RepeatedKnown ids fields ↔
      (convertFields ctx ids place next fields).1.Pairwise fun f g =>
        f.name = g.name → (ids f.name).isSome := by
    have hnames := convertFields_names ctx ids place next fields
    unfold RepeatedKnown
    have hmap : (fields.map FieldTemplate.name).Pairwise (fun a b => a = b → (ids a).isSome) ↔
        fields.Pairwise fun f g => f.name = g.name → (ids f.name).isSome := List.pairwise_map
    rw [← hmap, ← hnames, List.pairwise_map]
  rw [hpairwise]
  constructor
  · intro h
    refine (convertFields_pairwise huuid ids place next fields).imp_of_mem
      fun {f g} hf hg hne hname => ?_
    by_contra hnone
    rw [Option.isSome_iff_ne_none, not_not] at hnone
    exact hne hnone (hname ▸ hnone) (h f hf g hg hname)
  · intro h f hf g hg hname
    cases hid : ids f.name with
    | some id =>
      rcases mem_convertFields hf with hfid | ⟨hnone, -⟩
      · rcases mem_convertFields hg with hgid | ⟨hnone, -⟩
        · rw [← hname, hfid] at hgid
          exact Option.some.inj hgid
        · rw [← hname, hid] at hnone
          cases hnone
      · rw [hid] at hnone
        cases hnone
    | none =>
      by_contra hne
      have hsymm : Std.Symm fun f g : EntityFieldDefinition V =>
          f.name = g.name → (ids f.name).isSome :=
        ⟨fun f g hfg hgf => hgf ▸ hfg hgf.symm⟩
      have hsome := h.forall hf hg (fun heq => hne (heq ▸ rfl)) hname
      rw [hid] at hsome
      cases hsome

/-! ## Relationship types -/

theorem convertRelationshipTypes_next_le (ids : String → Option String) (next : Nat)
    (types : List (RelationshipTypeTemplate V)) :
    next ≤ (convertRelationshipTypes ctx ids next types).2 := by
  induction types generalizing next with
  | nil => exact Nat.le_refl next
  | cons rt types ih =>
    rw [convertRelationshipTypes]
    split
    · exact Nat.le_trans (Nat.le_succ next) (ih (next + 1))
    · exact ih next

/-- Every relationship type has a new id. -/
theorem convertRelationshipTypes_minted {ids : String → Option String} {next : Nat}
    {types : List (RelationshipTypeTemplate V)} {r : RelationshipTypeDefinition V}
    (hr : r ∈ (convertRelationshipTypes ctx ids next types).1) :
    Minted ctx.uuid next (convertRelationshipTypes ctx ids next types).2 r.id := by
  induction types generalizing next with
  | nil => cases hr
  | cons rt types ih =>
    rw [convertRelationshipTypes] at hr ⊢
    split at hr
    · rcases List.mem_cons.mp hr with rfl | hr
      · exact ⟨next, Nat.le_refl next, convertRelationshipTypes_next_le ids (next + 1) types, rfl⟩
      · exact (ih hr).mono (Nat.le_succ next) (Nat.le_refl _)
    · exact ih hr

/-- There are none exactly if none has both its ends. -/
theorem convertRelationshipTypes_nil {ids : String → Option String} {next : Nat}
    {types : List (RelationshipTypeTemplate V)} :
    (convertRelationshipTypes ctx ids next types).1 = [] ↔ ∀ rt ∈ types,
      ¬ ((truthy (ids rt.sourceEntityTypeName)).isSome ∧
        (truthy (ids rt.targetEntityTypeName)).isSome) := by
  induction types generalizing next with
  | nil => exact iff_of_true rfl fun rt h => absurd h List.not_mem_nil
  | cons rt types ih =>
    rw [convertRelationshipTypes, List.forall_mem_cons]
    split
    · rename_i hsource htarget
      refine iff_of_false (by simp) fun h => h.1 ?_
      rw [hsource, htarget]
      exact ⟨rfl, rfl⟩
    · rename_i hnot
      rw [ih]
      refine (and_iff_right ?_).symm
      rintro ⟨hsource, htarget⟩
      obtain ⟨source, hsource⟩ := Option.isSome_iff_exists.mp hsource
      obtain ⟨target, htarget⟩ := Option.isSome_iff_exists.mp htarget
      exact hnot source target hsource htarget

/-! ## Report types -/

theorem convertReportFields_minted (ctx : Context V) (place next : Nat)
    (fields : List (FieldTemplate V)) :
    next ≤ (convertReportFields ctx place next fields).2 ∧
      ∀ f ∈ (convertReportFields ctx place next fields).1,
        Minted ctx.uuid next (convertReportFields ctx place next fields).2 f.id := by
  induction fields generalizing place next with
  | nil => exact ⟨Nat.le_refl next, fun f hf => absurd hf List.not_mem_nil⟩
  | cons field fields ih =>
    obtain ⟨hle, hminted⟩ := ih (place + 1) (next + 1)
    rw [convertReportFields]
    refine ⟨Nat.le_of_succ_le hle, List.forall_mem_cons.mpr ⟨⟨next, Nat.le_refl next, hle, rfl⟩,
      fun f hf => (hminted f hf).mono (Nat.le_succ next) (Nat.le_refl _)⟩⟩

theorem convertReportFields_nil (place next : Nat) (fields : List (FieldTemplate V)) :
    (convertReportFields ctx place next fields).1 = [] ↔ fields = [] := by
  cases fields with
  | nil => exact iff_of_true rfl rfl
  | cons field fields =>
    rw [convertReportFields]
    exact iff_of_false (by simp) (by simp)

/-- A report type's id, and the number of the next random id. -/
def reportId (ctx : Context V) (existing : List (ReportTypeDefinition V)) (next : Nat)
    (t : ReportTypeTemplate V) : String × Nat :=
  match truthy ((existing.find? fun e => e.name = t.name).map ReportTypeDefinition.id) with
  | some id => (id, next)
  | none => (ctx.uuid next, next + 1)

/-- When a report type was created, if it was there. -/
def reportCreatedAt (existing : List (ReportTypeDefinition V)) (now : String)
    (t : ReportTypeTemplate V) : String :=
  ((existing.find? fun e => e.name = t.name).map ReportTypeDefinition.createdAt).getD now

variable {existingReports : List (ReportTypeDefinition V)}

theorem next_le_reportId (ctx : Context V) (existing : List (ReportTypeDefinition V)) (next : Nat)
    (t : ReportTypeTemplate V) : next ≤ (reportId ctx existing next t).2 := by
  unfold reportId
  split
  · exact Nat.le_refl next
  · exact Nat.le_succ next

theorem convertReportTypes_cons (ctx : Context V) (existing : List (ReportTypeDefinition V))
    (next : Nat) (t : ReportTypeTemplate V) (types : List (ReportTypeTemplate V)) :
    convertReportTypes ctx existing next (t :: types) =
      let minted := reportId ctx existing next t
      let fields := convertReportFields ctx 0 minted.2 t.fields
      let rest := convertReportTypes ctx existing fields.2 types
      (makeReportType ctx t minted.1 fields.1 (reportCreatedAt existing ctx.now t) :: rest.1,
        rest.2) := by
  rw [convertReportTypes]
  unfold reportId reportCreatedAt
  rfl

/-- Every field of a report type has a new id. -/
theorem convertReportTypes_minted (next : Nat) (types : List (ReportTypeTemplate V)) :
    next ≤ (convertReportTypes ctx existingReports next types).2 ∧
      ∀ r ∈ (convertReportTypes ctx existingReports next types).1, ∀ f ∈ r.fields,
        Minted ctx.uuid next (convertReportTypes ctx existingReports next types).2 f.id := by
  induction types generalizing next with
  | nil => exact ⟨Nat.le_refl next, fun r hr => absurd hr List.not_mem_nil⟩
  | cons t types ih =>
    rw [convertReportTypes_cons]
    dsimp only
    have hid := next_le_reportId ctx existingReports next t
    obtain ⟨hle, hfields⟩ := convertReportFields_minted ctx 0
      (reportId ctx existingReports next t).2 t.fields
    obtain ⟨hle', hrest⟩ := ih (convertReportFields ctx 0
      (reportId ctx existingReports next t).2 t.fields).2
    refine ⟨by omega, List.forall_mem_cons.mpr ⟨fun f hf => ?_, fun r hr f hf => ?_⟩⟩
    · exact (hfields f hf).mono hid hle'
    · exact (hrest r hr f hf).mono (by omega) (Nat.le_refl _)

/-- What a report type is converted to. -/
inductive ConvertedReport (ctx : Context V) (t : ReportTypeTemplate V) :
    ReportTypeDefinition V → Prop where
  | mk (id createdAt : String) (next : Nat) (hid : id ≠ "") :
      ConvertedReport ctx t
        (makeReportType ctx t id (convertReportFields ctx 0 next t.fields).1 createdAt)

theorem convertReportTypes_converted (huuid : ∀ k, ctx.uuid k ≠ "")
    (existing : List (ReportTypeDefinition V)) (next : Nat) (types : List (ReportTypeTemplate V)) :
    List.Forall₂ (ConvertedReport ctx) types
      (convertReportTypes ctx existing next types).1 := by
  induction types generalizing next with
  | nil => exact .nil
  | cons t types ih =>
    rw [convertReportTypes_cons]
    refine .cons (.mk _ _ _ ?_) (ih _)
    unfold reportId
    split
    · rename_i hid
      exact (truthy_eq_some.mp hid).2
    · exact huuid next

theorem convertedReport_names {types : List (ReportTypeTemplate V)}
    {rs : List (ReportTypeDefinition V)} (h : List.Forall₂ (ConvertedReport ctx) types rs) :
    rs.map ReportTypeDefinition.name = types.map ReportTypeTemplate.name := by
  induction h with
  | nil => rfl
  | cons h _ ih =>
    cases h
    rw [List.map_cons, List.map_cons, ih]
    rfl

/-- No report type has a field exactly if none had one in the template. -/
theorem convertedReport_fields {types : List (ReportTypeTemplate V)}
    {rs : List (ReportTypeDefinition V)} (h : List.Forall₂ (ConvertedReport ctx) types rs) :
    (∀ r ∈ rs, r.fields = []) ↔ ∀ t ∈ types, t.fields = [] := by
  refine (forall_mem_iff h fun t r ht => ?_).symm
  cases ht with
  | mk id createdAt next hid => exact (convertReportFields_nil 0 next _).symm

/-- **Report types without fields that are converted again** are as they were. -/
theorem convertReportTypes_again {types : List (ReportTypeTemplate V)}
    {rs existing' : List (ReportTypeDefinition V)} (h : List.Forall₂ (ConvertedReport ctx) types rs)
    (hfields : ∀ t ∈ types, t.fields = [])
    (hfind : ∀ r ∈ rs, (existing'.find? fun e => e.name = r.name) = some r) (now : String)
    (next : Nat) :
    convertReportTypes { ctx with now } existing' next types =
      (rs.map fun r => { r with updatedAt := now }, next) := by
  induction h with
  | nil => rfl
  | @cons t r types rs ht _ ih =>
    obtain ⟨hfield, hfields'⟩ := List.forall_mem_cons.mp hfields
    obtain ⟨hr, hfind'⟩ := List.forall_mem_cons.mp hfind
    have hrest := ih hfields' hfind'
    cases ht with
    | mk id createdAt n hid =>
      have hr : (existing'.find? fun e => e.name = t.name) = some (makeReportType ctx t id
        (convertReportFields ctx 0 n t.fields).1 createdAt) := hr
      have htruthy : truthy (some id) = some id := truthy_eq_some.mpr ⟨rfl, hid⟩
      have hreport : reportId { ctx with now } existing' next t = (id, next) := by
        rw [reportId, hr, Option.map_some]
        change (match truthy (some id) with
          | some id => (id, next)
          | none => (ctx.uuid next, next + 1)) = (id, next)
        rw [htruthy]
      rw [convertReportTypes_cons, hreport, hfield]
      dsimp only [convertReportFields]
      rw [hrest, reportCreatedAt, hr]
      rfl

/-! ## What is the same -/

/-- The names and ids of entity types and their fields. -/
def entityIds (es : List (EntityTypeDefinition V)) :
    List (String × String × List (String × String)) :=
  es.map fun e => (e.name, e.id, e.fields.map fun f => (f.name, f.id))

/-- The names and ids of report types and their fields. -/
def reportIds (rs : List (ReportTypeDefinition V)) :
    List (String × String × List (String × String)) :=
  rs.map fun r => (r.name, r.id, r.fields.map fun f => (f.name, f.id))

/-- Everything has the id that it had, and there is nothing more and nothing less. -/
structure SameIds (a b : Applied V) : Prop where
  entityTypes : entityIds b.entityTypes = entityIds a.entityTypes
  relationshipTypes : b.relationshipTypes.map RelationshipTypeDefinition.id =
    a.relationshipTypes.map RelationshipTypeDefinition.id
  reportTypes : reportIds b.reportTypes = reportIds a.reportTypes

/-- The definitions are the same but for `updatedAt`. -/
structure SameDefinitions (a b : Applied V) : Prop where
  entityTypes : (b.entityTypes.map fun e => { e with updatedAt := "" }) =
    a.entityTypes.map fun e => { e with updatedAt := "" }
  relationshipTypes : (b.relationshipTypes.map fun r => { r with updatedAt := "" }) =
    a.relationshipTypes.map fun r => { r with updatedAt := "" }
  reportTypes : (b.reportTypes.map fun r => { r with updatedAt := "" }) =
    a.reportTypes.map fun r => { r with updatedAt := "" }

/-- A name that has an id: of a type that is resolved, or that was there. -/
def Known (types : List (EntityTypeTemplate V)) (existing : List (EntityTypeDefinition V))
    (name : String) : Prop :=
  name ∈ types.map EntityTypeTemplate.name ∨ (truthy (existingIds existing name)).isSome

/-- The template resolves to no relationship type with both its ends known, to no report type with
fields, and to no entity type with two fields of one name that was not there. -/
structure Stable (template : CaseManagementTemplate V)
    (allTemplates : String → Option (CaseManagementTemplate V))
    (existing : List (EntityTypeDefinition V)) : Prop where
  relationships : ∀ rt ∈ resolvedRelationships template allTemplates,
    ¬ (Known (resolvedEntityTypes template allTemplates) existing rt.sourceEntityTypeName ∧
      Known (resolvedEntityTypes template allTemplates) existing rt.targetEntityTypeName)
  reportFields : ∀ rt ∈ resolvedReportTypes template allTemplates, rt.fields = []
  fieldNames : ∀ t ∈ resolvedEntityTypes template allTemplates,
    RepeatedKnown (existingFieldIds existing t.name) t.fields

theorem SameDefinitions.sameIds {a b : Applied V} (h : SameDefinitions a b) : SameIds a b := by
  refine ⟨?_, ?_, ?_⟩
  · have := congrArg entityIds h.entityTypes
    rwa [entityIds, entityIds, List.map_map, List.map_map] at this
  · have := congrArg (List.map RelationshipTypeDefinition.id) h.relationshipTypes
    rwa [List.map_map, List.map_map] at this
  · have := congrArg reportIds h.reportTypes
    rwa [reportIds, reportIds, List.map_map, List.map_map] at this

/-- What the names of the ends of relationships stand for. -/
theorem known_iff (huuid : ∀ k, ctx.uuid k ≠ "") (types : List (EntityTypeTemplate V))
    (next : Nat) (name : String) :
    (truthy ((convertEntityTypes ctx existing (existingIds existing) next types).2.1
      name)).isSome ↔ Known types existing name := by
  by_cases hmem : name ∈ types.map EntityTypeTemplate.name
  · exact iff_of_true (convertEntityTypes_known huuid hmem _ _) (.inl hmem)
  · rw [convertEntityTypes_other hmem, Known, or_iff_right hmem]

/-- The entity types have their ids again exactly if fields with one name were there. -/
theorem entityIds_again_iff (huuid : Function.Injective ctx.uuid)
    (hnames : (types.map EntityTypeTemplate.name).Nodup)
    (h : List.Forall₂ (Converted ctx existing ids) types es) (now : String) :
    entityIds (es.map (againType now es)) = entityIds es ↔
      ∀ t ∈ types, RepeatedKnown (existingFieldIds existing t.name) t.fields := by
  have hes : (es.map EntityTypeDefinition.name).Nodup := by rwa [converted_names h]
  have hkept : ∀ e ∈ es, ((entityIds [againType now es e]) = entityIds [e] ↔
      ∀ f ∈ e.fields, ∀ g ∈ e.fields, f.name = g.name → f.id = g.id) := by
    intro e he
    rw [← lastId_eq_iff]
    simp only [entityIds, againType, List.map_singleton, List.map_map, List.singleton_inj,
      Prod.mk.injEq, true_and, List.map_inj_left, Function.comp_apply, againField,
      existingFieldIds_converted hes he]
    refine forall₂_congr fun f hf => ?_
    obtain ⟨g, -, -, hlast⟩ := exists_lastId hf
    rw [hlast, Option.getD_some, Option.some.injEq]
  have hmap : entityIds (es.map (againType now es)) = entityIds es ↔
      ∀ e ∈ es, entityIds [againType now es e] = entityIds [e] := by
    simp only [entityIds, List.map_map, List.map_inj_left, List.map_singleton, List.singleton_inj,
      Function.comp_apply]
  rw [hmap, forall₂_congr hkept]
  refine (forall_mem_iff h fun t e ht => ?_).symm
  cases ht with
  | mk id next hid => exact (sameName_iff huuid 0 next t.fields).symm

/-- A name that is known when a template is applied again was known before. -/
theorem known_of_again
    (h : List.Forall₂ (Converted ctx existing ids) types es) {name : String}
    (hknown : Known types es name) : Known types existing name := by
  rcases hknown with hmem | hsome
  · exact .inl hmem
  · unfold existingIds at hsome
    split_ifs at hsome with hcontact
    · refine .inr ?_
      rw [existingIds, if_pos hcontact]
      rfl
    · cases hfind : es.reverse.find? fun e => e.name = name with
      | none =>
        rw [hfind] at hsome
        cases hsome
      | some e =>
        have hname : e.name = name := by simpa using List.find?_some hfind
        refine .inl ?_
        rw [← converted_names h, ← hname]
        exact List.mem_map_of_mem (List.mem_reverse.mp (List.mem_of_find?_eq_some hfind))

theorem relationshipIds_again_iff (huuid : Function.Injective ctx.uuid)
    {ids ids' : String → Option String} {types : List (RelationshipTypeTemplate V)}
    {next next' : Nat} (later : String)
    (hle : (convertRelationshipTypes ctx ids next types).2 ≤ next')
    (hknown : ∀ name, (truthy (ids' name)).isSome → (truthy (ids name)).isSome) :
    (convertRelationshipTypes { ctx with now := later } ids' next' types).1.map
          RelationshipTypeDefinition.id =
        (convertRelationshipTypes ctx ids next types).1.map RelationshipTypeDefinition.id ↔
      ∀ rt ∈ types, ¬ ((truthy (ids rt.sourceEntityTypeName)).isSome ∧
        (truthy (ids rt.targetEntityTypeName)).isSome) := by
  have hnone : (convertRelationshipTypes ctx ids next types).1 = [] ↔ _ :=
    convertRelationshipTypes_nil
  rw [← hnone]
  constructor
  · intro hsame
    by_contra hne
    obtain ⟨r, hr⟩ := List.exists_mem_of_ne_nil _ hne
    have hmem := List.mem_map_of_mem (f := RelationshipTypeDefinition.id) hr
    rw [← hsame] at hmem
    obtain ⟨r', hr', heq⟩ := List.mem_map.mp hmem
    have hminted : Minted ({ ctx with now := later } : Context V).uuid next' _ r'.id :=
      convertRelationshipTypes_minted hr'
    exact (convertRelationshipTypes_minted hr).ne huuid hminted hle heq.symm
  · intro hnil
    have hnil' : (convertRelationshipTypes { ctx with now := later } ids' next' types).1 = [] := by
      refine convertRelationshipTypes_nil.mpr fun rt hrt hboth => ?_
      exact convertRelationshipTypes_nil.mp hnil rt hrt
        ⟨hknown _ hboth.1, hknown _ hboth.2⟩
    rw [hnil, hnil']

/-- Report types without fields that are converted again. -/
theorem reportTypes_again (hfresh : Fresh ctx.uuid existing) {types : List (ReportTypeTemplate V)}
    (hnames : (types.map ReportTypeTemplate.name).Nodup) (hfields : ∀ t ∈ types, t.fields = [])
    (later : String) (next next' : Nat) :
    (convertReportTypes { ctx with now := later }
        (convertReportTypes ctx existingReports next types).1 next' types).1 =
      (convertReportTypes ctx existingReports next types).1.map
        fun r => { r with updatedAt := later } := by
  have h := convertReportTypes_converted hfresh.nonempty existingReports next types
  have hrs : ((convertReportTypes ctx existingReports next types).1.map
      ReportTypeDefinition.name).Nodup := by rwa [convertedReport_names h]
  rw [convertReportTypes_again h hfields (fun r hr => ?_) later next']
  exact (Tables.lookup_eq_some_iff hrs).mpr ⟨hr, rfl⟩

theorem reportIds_again_iff (hfresh : Fresh ctx.uuid existing)
    {types : List (ReportTypeTemplate V)} (hnames : (types.map ReportTypeTemplate.name).Nodup)
    (later : String) {next next' : Nat}
    (hle : (convertReportTypes ctx existingReports next types).2 ≤ next') :
    reportIds (convertReportTypes { ctx with now := later }
        (convertReportTypes ctx existingReports next types).1 next' types).1 =
      reportIds (convertReportTypes ctx existingReports next types).1 ↔
        ∀ t ∈ types, t.fields = [] := by
  constructor
  · intro hsame
    have h := convertReportTypes_converted hfresh.nonempty existingReports next types
    rw [← convertedReport_fields h]
    intro r hr
    by_contra hne
    obtain ⟨f, hf⟩ := List.exists_mem_of_ne_nil _ hne
    have hmem : (r.name, r.id, r.fields.map fun f => (f.name, f.id)) ∈
        reportIds (convertReportTypes ctx existingReports next types).1 :=
      List.mem_map.mpr ⟨r, hr, rfl⟩
    rw [← hsame] at hmem
    obtain ⟨r', hr', heq⟩ := List.mem_map.mp hmem
    have hf' : (f.name, f.id) ∈ r'.fields.map fun f => (f.name, f.id) := by
      rw [(Prod.mk.inj (Prod.mk.inj heq).2).2]
      exact List.mem_map.mpr ⟨f, hf, rfl⟩
    obtain ⟨f', hf', hid⟩ := List.mem_map.mp hf'
    have hminted := (convertReportTypes_minted next types).2 r hr f hf
    have hminted' := (convertReportTypes_minted next' types).2 r' hr' f' hf'
    exact hminted.ne hfresh.injective hminted' hle (Prod.mk.inj hid).2.symm
  · intro hfields
    rw [reportTypes_again hfresh hnames hfields, reportIds, reportIds, List.map_map]
    rfl

theorem convertFields_createdAt {place next : Nat}
    (hf : f ∈ (convertFields ctx ids place next fields).1) :
    f.createdAt = ctx.now := by
  induction fields generalizing place next with
  | nil => cases hf
  | cons field fields ih =>
    rw [convertFields] at hf
    rcases List.mem_cons.mp hf with rfl | hf
    · rfl
    · exact ih hf

/-- A field that is converted again with the id that it had. -/
theorem againField_eq_self {now : String}
    (hid : (ids f.name).getD f.id = f.id) (hnow : f.createdAt = now) : againField now ids f = f := by
  subst hnow
  unfold againField
  rw [hid]

/-- Entity types that have their ids again are the same but for `updatedAt` exactly if no time has
passed, or they have no fields. -/
theorem sameTypes_iff
    (h : List.Forall₂ (Converted ctx existing ids) types es) (later : String)
    (hids : entityIds (es.map (againType later es)) = entityIds es) :
    ((es.map (againType later es)).map fun e => { e with updatedAt := "" }) =
        (es.map fun e => { e with updatedAt := "" }) ↔
      later = ctx.now ∨ ∀ t ∈ types, t.fields = [] := by
  have hconverted : ∀ e ∈ es, ∀ f ∈ e.fields, f.createdAt = ctx.now := by
    refine (forall_mem_iff (P := fun _ => True) h fun t e ht => ?_).mp fun _ _ => trivial
    cases ht with
    | mk id next hid => exact iff_of_true trivial fun f hf => convertFields_createdAt hf
  have hfields : (∀ t ∈ types, t.fields = []) ↔ ∀ e ∈ es, e.fields = [] := by
    refine forall_mem_iff h fun t e ht => ?_
    cases ht with
    | mk id next hid =>
      have hnames := convertFields_names ctx (existingFieldIds existing t.name) 0 next t.fields
      rw [← List.map_eq_nil_iff (f := FieldTemplate.name), ← hnames, List.map_eq_nil_iff]
      rfl
  rw [List.map_map, List.map_inj_left, hfields]
  constructor
  · intro hsame
    by_contra hnot
    rw [not_or] at hnot
    refine hnot.2 fun e he => ?_
    by_contra hne
    obtain ⟨f, hf⟩ := List.exists_mem_of_ne_nil _ hne
    have heq : e.fields.map (againField later (existingFieldIds es e.name)) = e.fields :=
      congrArg EntityTypeDefinition.fields (hsame e he)
    have hf' := hf
    rw [← heq] at hf'
    obtain ⟨g, -, rfl⟩ := List.mem_map.mp hf'
    exact hnot.1 (hconverted e he _ hf)
  · intro hor e he
    have hmap : e.fields.map (againField later (existingFieldIds es e.name)) = e.fields := by
      rcases hor with hnow | hnil
      · rw [entityIds, entityIds, List.map_map, List.map_inj_left] at hids
        have hfield := (Prod.mk.inj (Prod.mk.inj (hids e he)).2).2
        simp only [againType, List.map_map, List.map_inj_left] at hfield
        refine (List.map_congr_left fun f hf => ?_).trans (List.map_id _)
        exact againField_eq_self (Prod.mk.inj (hfield f hf)).2
          ((hconverted e he f hf).trans hnow.symm)
      · rw [hnil e he, List.map_nil]
    rw [Function.comp_apply, againType, hmap]

instance (types : List (EntityTypeTemplate V)) (existing : List (EntityTypeDefinition V))
    (name : String) : Decidable (Known types existing name) :=
  inferInstanceAs (Decidable (_ ∨ _))

instance (known : String → Option String) (fields : List (FieldTemplate V)) :
    Decidable (RepeatedKnown known fields) :=
  inferInstanceAs (Decidable (List.Pairwise _ _))

instance (template : CaseManagementTemplate V)
    (allTemplates : String → Option (CaseManagementTemplate V))
    (existing : List (EntityTypeDefinition V)) :
    Decidable (Stable template allTemplates existing) :=
  decidable_of_iff
    ((∀ rt ∈ resolvedRelationships template allTemplates,
      ¬ (Known (resolvedEntityTypes template allTemplates) existing rt.sourceEntityTypeName ∧
        Known (resolvedEntityTypes template allTemplates) existing rt.targetEntityTypeName)) ∧
      (∀ rt ∈ resolvedReportTypes template allTemplates, rt.fields.isEmpty = true) ∧
      ∀ t ∈ resolvedEntityTypes template allTemplates,
        RepeatedKnown (existingFieldIds existing t.name) t.fields)
    ⟨fun h => ⟨h.1, fun rt hrt => List.isEmpty_iff.mp (h.2.1 rt hrt), h.2.2⟩,
      fun h => ⟨h.1, fun rt hrt => List.isEmpty_iff.mpr (h.2 rt hrt), h.3⟩⟩

/-! ## A template that is applied again -/

/-- **A template that is applied again** gives everything its id again exactly if it is stable, and
the same definitions exactly if there are also no entity fields, or no time has passed. -/
theorem reapplied_iff (allTemplates : String → Option (CaseManagementTemplate V))
    {existing : List (EntityTypeDefinition V)} (hfresh : Fresh ctx.uuid existing)
    (existingReports : List (ReportTypeDefinition V)) (next : Nat) (later : String) :
    let first := applyTemplate ctx allTemplates existing existingReports next
    let second := applyTemplate { ctx with now := later } allTemplates first.1.entityTypes
      first.1.reportTypes first.2
    (SameIds first.1 second.1 ↔ Stable ctx.template allTemplates existing) ∧
      (SameDefinitions first.1 second.1 ↔ Stable ctx.template allTemplates existing ∧
        (later = ctx.now ∨
          ∀ t ∈ resolvedEntityTypes ctx.template allTemplates, t.fields = [])) := by
  intro first second
  have hnames := nodup_resolvedEntityTypes ctx.template allTemplates
  have hreports := nodup_resolvedReportTypes ctx.template allTemplates
  have hconverted : List.Forall₂ (Converted ctx existing (existingIds existing))
      (resolvedEntityTypes ctx.template allTemplates) first.1.entityTypes :=
    convertEntityTypes_converted hfresh hnames (fun _ _ => rfl) next
  obtain ⟨htypes, hnext⟩ := entityTypes_again hfresh hnames hconverted later first.2
  have htypes : second.1.entityTypes =
      first.1.entityTypes.map (againType later first.1.entityTypes) := htypes
  have hentities : entityIds second.1.entityTypes = entityIds first.1.entityTypes ↔
      ∀ t ∈ resolvedEntityTypes ctx.template allTemplates,
        RepeatedKnown (existingFieldIds existing t.name) t.fields := by
    rw [htypes]
    exact entityIds_again_iff hfresh.injective hnames hconverted later
  -- the second relationship types and report fields are given ids after all the first ones
  let types := convertEntityTypes ctx existing (existingIds existing) next
    (resolvedEntityTypes ctx.template allTemplates)
  let relationships := convertRelationshipTypes ctx types.2.1 types.2.2
    (resolvedRelationships ctx.template allTemplates)
  let reports := convertReportTypes ctx existingReports relationships.2
    (resolvedReportTypes ctx.template allTemplates)
  have hle : relationships.2 ≤ reports.2 := (convertReportTypes_minted _ _).1
  have hknown (name : String) : (truthy (types.2.1 name)).isSome ↔
      Known (resolvedEntityTypes ctx.template allTemplates) existing name :=
    known_iff hfresh.nonempty _ next name
  have hrelationships : second.1.relationshipTypes.map RelationshipTypeDefinition.id =
      first.1.relationshipTypes.map RelationshipTypeDefinition.id ↔
        ∀ rt ∈ resolvedRelationships ctx.template allTemplates,
          ¬ (Known (resolvedEntityTypes ctx.template allTemplates) existing
              rt.sourceEntityTypeName ∧
            Known (resolvedEntityTypes ctx.template allTemplates) existing
              rt.targetEntityTypeName) := by
    refine (relationshipIds_again_iff hfresh.injective later ?_ fun name hname => ?_).trans ?_
    · rw [hnext]
      exact hle
    · have huuid : ∀ k, ({ ctx with now := later } : Context V).uuid k ≠ "" := hfresh.nonempty
      have hagain := (known_iff huuid _ _ name).mp hname
      exact (hknown name).mpr (known_of_again hconverted hagain)
    · exact forall₂_congr fun rt _ => not_congr (and_congr (hknown _) (hknown _))
  have hreportTypes : reportIds second.1.reportTypes = reportIds first.1.reportTypes ↔
      ∀ rt ∈ resolvedReportTypes ctx.template allTemplates, rt.fields = [] :=
    reportIds_again_iff hfresh hreports later
      (Nat.le_trans (Nat.le_of_eq hnext.symm) (convertRelationshipTypes_next_le _ _ _))
  have hstable : SameIds first.1 second.1 ↔ Stable ctx.template allTemplates existing := by
    constructor
    · intro h
      exact ⟨hrelationships.mp h.relationshipTypes, hreportTypes.mp h.reportTypes,
        hentities.mp h.entityTypes⟩
    · intro h
      exact ⟨hentities.mpr h.fieldNames, hrelationships.mpr h.relationships,
        hreportTypes.mpr h.reportFields⟩
  refine ⟨hstable, fun hsame => ?_, fun ⟨hst, hnow⟩ => ?_⟩
  · have hids := hsame.sameIds.entityTypes
    rw [htypes] at hids
    have hsame' := hsame.entityTypes
    rw [htypes] at hsame'
    exact ⟨hstable.mp hsame.sameIds, (sameTypes_iff hconverted later hids).mp hsame'⟩
  · have hids := (hstable.mpr hst).entityTypes
    rw [htypes] at hids
    refine ⟨?_, ?_, ?_⟩
    · rw [htypes]
      exact (sameTypes_iff hconverted later hids).mpr hnow
    · have hnil : relationships.1 = [] := convertRelationshipTypes_nil.mpr fun rt hrt hboth =>
        hst.relationships rt hrt ⟨(hknown _).mp hboth.1, (hknown _).mp hboth.2⟩
      have hids' := (hstable.mpr hst).relationshipTypes
      have hnil' : second.1.relationshipTypes = [] := by
        rw [← List.map_eq_nil_iff (f := RelationshipTypeDefinition.id), hids']
        exact congrArg (List.map RelationshipTypeDefinition.id) hnil
      rw [hnil']
      exact (congrArg (List.map fun r => { r with updatedAt := "" }) hnil).symm
    · have hagain : second.1.reportTypes =
          first.1.reportTypes.map fun r => { r with updatedAt := later } :=
        reportTypes_again hfresh hreports hst.reportFields later _ _
      rw [hagain, List.map_map]
      rfl

/-! ## Two templates -/

def sampleUuid (k : Nat) : String := String.ofList ('u' :: List.replicate k '0')

theorem sampleUuid_fresh : Fresh (V := String) sampleUuid [] where
  injective j k h := by
    have hlist := congrArg String.toList h
    rw [sampleUuid, sampleUuid, String.toList_ofList, String.toList_ofList] at hlist
    simpa using congrArg List.length hlist
  nonempty k h := by
    have hlist := congrArg String.toList h
    rw [sampleUuid, String.toList_ofList] at hlist
    cases hlist
  contact k h := by
    have hlist := congrArg String.toList h
    rw [sampleUuid, String.toList_ofList] at hlist
    cases hlist
  existing k e he := absurd he List.not_mem_nil

def sampleField (name : String) : FieldTemplate String where
  name := name
  label := name
  type := "text"

def sampleEntityType (name : String) (fields : List String) : EntityTypeTemplate String where
  name := name
  label := name
  labelPlural := name
  description := ""
  category := "case"
  fields := fields.map sampleField
  statuses := "open"
  defaultStatus := "open"
  closedStatuses := []

def sampleReportType (name : String) (fields : List String) : ReportTypeTemplate String where
  name := name
  label := name
  labelPlural := name
  fields := fields.map sampleField
  statuses := "new"
  defaultStatus := "new"

def sampleContext (template : CaseManagementTemplate String) : Context String where
  template := template
  hubId := "hub"
  now := "2026-01-01T00:00:00.000Z"
  uuid := sampleUuid

def sampleLater : String := "2026-01-02T00:00:00.000Z"

/-- Two entity types whose fields have distinct names, and a report type without fields. -/
def incidents : CaseManagementTemplate String where
  id := "incidents"
  version := "1"
  entityTypes := some [sampleEntityType "incident" ["place", "time"], sampleEntityType "person" []]
  reportTypes := some [sampleReportType "daily" []]

theorem incidents_kept :
    let first := applyTemplate (sampleContext incidents) (fun _ => none) [] [] 0
    let second := applyTemplate { sampleContext incidents with now := sampleLater } (fun _ => none)
      first.1.entityTypes first.1.reportTypes first.2
    SameIds first.1 second.1 ∧ ¬ SameDefinitions first.1 second.1 := by
  have hfresh : Fresh (sampleContext incidents).uuid [] := sampleUuid_fresh
  obtain ⟨hids, hsame⟩ := reapplied_iff (fun _ => none) hfresh [] 0 sampleLater
  exact ⟨hids.mpr (by decide), fun h => absurd (hsame.mp h).2 (by decide)⟩

/-- An entity type with two fields of one name, a relationship type, and a report type with a
field. -/
def arrests : CaseManagementTemplate String where
  id := "arrests"
  version := "1"
  entityTypes := some [sampleEntityType "arrest" ["charge", "charge"]]
  relationshipTypes := some [
    { sourceEntityTypeName := "contact"
      targetEntityTypeName := "arrest"
      cardinality := "M:N"
      label := "arrested in"
      reverseLabel := "arrest of"
      sourceLabel := "person"
      targetLabel := "arrest" }]
  reportTypes := some [sampleReportType "observer" ["notes"]]

/-- Applied again, the fields with one name have one id, and the relationship type and the report
field have new ones. -/
theorem arrests_renewed :
    let first := applyTemplate (sampleContext arrests) (fun _ => none) [] [] 0
    let second := applyTemplate { sampleContext arrests with now := sampleLater } (fun _ => none)
      first.1.entityTypes first.1.reportTypes first.2
    entityIds second.1.entityTypes ≠ entityIds first.1.entityTypes ∧
      second.1.relationshipTypes.map RelationshipTypeDefinition.id ≠
        first.1.relationshipTypes.map RelationshipTypeDefinition.id ∧
      reportIds second.1.reportTypes ≠ reportIds first.1.reportTypes := by
  decide

end Llamenos.Worker.Templates

import W3Stats.KeyedTable
import W3Stats.SchemaStore

/-!
# The changes between two schemas

What validation leaves of the schemas a program can declare, and what the comparison
with the schema of a file comes to: the classes that are missing, for a class of the
same shape its indexes, and otherwise something that needs a migration.
-/

namespace W3Stats

namespace ObjectStore

/-! ### The schemas a program declares -/

/-- What `RLMObjectSchema` and `objectStoreCopy` make sure of before the schema gets here, as
    long as no class or column is renamed: names that are not empty and distinct, the one
    property of the name of the primary key marked, and what is stored apart from what is
    computed. -/
structure ObjectSchema.Declared (object : ObjectSchema) : Prop where
  name_ne : object.name ≠ ""
  names_nodup : ((object.persistedProperties ++ object.computedProperties).map Property.name).Nodup
  names_ne : ∀ prop ∈ object.persistedProperties ++ object.computedProperties, prop.name ≠ ""
  ne_objectId : ∀ prop ∈ object.persistedProperties, prop.name ≠ objectIdColumnName
  stored : ∀ prop ∈ object.persistedProperties,
    prop.type.base ≠ .linkingObjects ∧ prop.type.base ≠ .any
  isPrimary : ∀ prop ∈ object.persistedProperties,
    prop.isPrimary ↔ prop.name = object.primaryKey
  primaryKey : object.primaryKey = "" ∨
    ∃ prop ∈ object.persistedProperties, prop.name = object.primaryKey

/-- No list is indexed or the primary key.  The binding lets it, and so does validation; but a
    table gets no index for a list, and for a primary key a column of single values. -/
def ObjectSchema.PlainLists (object : ObjectSchema) : Prop :=
  ∀ prop ∈ object.persistedProperties, prop.type.array → prop.requiresIndex = false

/-- A schema as `update_schema` gets it, without such lists. -/
structure DeclaredSchema extends Schema where
  declared : ∀ object ∈ toSchema.types, object.Declared
  plainLists : ∀ object ∈ toSchema.types, object.PlainLists

/-- A property that can be stored: what validation finds nothing wrong with. -/
structure Property.Storable (schema : Schema) (prop : Property) : Prop where
  base : prop.type.base ≠ .linkingObjects ∧ prop.type.base ≠ .any
  array : prop.type.array → prop.requiresIndex = false
  target : prop.type.base = .object → ∃ target ∈ schema.types, target.name = prop.objectType
  link : prop.type.base = .object → prop.type.nullable = !prop.type.array
  link_index : prop.type.base = .object → prop.requiresIndex = false
  objectType : prop.type.base ≠ .object → prop.objectType = ""
  primary : prop.isPrimary → prop.type.base = .int ∨ prop.type.base = .string

section Validation

variable {schema : Schema} {object : ObjectSchema} {prop : Property}

theorem ascending_of_findDuplicates {objects : List ObjectSchema}
    (hsorted : objects.Pairwise fun lft rgt => lft.name ≤ rgt.name)
    (h : findDuplicates objects = []) : SortedZip.Ascending ObjectSchema.name objects := by
  induction objects with
  | nil => exact List.Pairwise.nil
  | cons lft objects ih =>
    obtain ⟨hlft, hobjects⟩ := List.pairwise_cons.mp hsorted
    cases objects with
    | nil => exact List.pairwise_singleton _ _
    | cons rgt objects =>
      rw [findDuplicates] at h
      obtain ⟨hne, hrest⟩ := List.append_eq_nil_iff.mp h
      have hlt : lft.name < rgt.name := by
        apply lt_of_le_of_ne (hlft rgt List.mem_cons_self)
        intro heq
        simp [heq] at hne
      apply List.pairwise_cons.mpr ⟨_, ih hobjects hrest⟩
      intro other hother
      rcases List.mem_cons.mp hother with rfl | hother
      · exact hlt
      · exact hlt.trans_le ((List.pairwise_cons.mp hobjects).1 other hother)

theorem Schema.ascending_of_validate (h : schema.validate = []) :
    SortedZip.Ascending ObjectSchema.name schema.types :=
  ascending_of_findDuplicates schema.sorted (List.append_eq_nil_iff.mp h).1

theorem validateProperty_of_validateProperties {objectName : String} {primary : Option Property}
    {props : List Property} (h : (validateProperties schema objectName primary props).2 = [])
    (hprop : prop ∈ props) :
    ∃ met, (validateProperty schema objectName met prop).2 = [] := by
  induction props generalizing primary with
  | nil => cases hprop
  | cons head tail ih =>
    rw [validateProperties] at h
    obtain ⟨hhead, htail⟩ := List.append_eq_nil_iff.mp h
    rcases List.mem_cons.mp hprop with rfl | hprop
    · exact ⟨primary, hhead⟩
    · exact ih htail hprop

theorem Schema.validateProperty_of_validate (h : schema.validate = [])
    (hobject : object ∈ schema.types) (hprop : prop ∈ object.persistedProperties) :
    ∃ met, (validateProperty schema object.name met prop).2 = [] := by
  have hall := List.flatMap_eq_nil_iff.mp (List.append_eq_nil_iff.mp h).2 object hobject
  exact validateProperty_of_validateProperties (List.append_eq_nil_iff.mp hall).1
    (List.mem_append_left _ hprop)

theorem exists_of_validateLink {objectName : String}
    (h : validateLink schema objectName prop = []) :
    ∃ target ∈ schema.types, target.name = prop.objectType := by
  cases hfind : schema.find prop.objectType with
  | none => simp [validateLink, hfind] at h
  | some target =>
    obtain ⟨htarget, hname⟩ := LowerBound.of_find?_eq_some hfind
    exact ⟨target, htarget, of_decide_eq_true hname⟩

/-- The checks of `validate_property`, read back. -/
theorem storable_of_validateProperty {objectName : String} {met : Option Property}
    (hbase : prop.type.base ≠ .linkingObjects ∧ prop.type.base ≠ .any)
    (harray : prop.type.array → prop.requiresIndex = false)
    (h : (validateProperty schema objectName met prop).2 = []) : prop.Storable schema := by
  simp only [validateProperty, List.append_eq_nil_iff] at h
  obtain ⟨⟨⟨⟨⟨-, hnullable⟩, hprimary⟩, hindexed⟩, -⟩, hlink⟩ := h
  have hprimary' : prop.isPrimary → prop.type.base = .int ∨ prop.type.base = .string := by
    intro hp
    by_contra hne
    simp only [hp, if_true, List.append_eq_nil_iff, ite_eq_right_iff] at hprimary
    exact absurd (hprimary.1 (not_or.mp hne)) (List.cons_ne_nil _ _)
  refine ⟨hbase, harray, fun hobject => ?_, fun hobject => ?_, fun hobject => ?_, fun hobject => ?_,
    hprimary'⟩
  · rw [if_neg (by simp [hobject])] at hlink
    exact exists_of_validateLink hlink
  · rcases hn : prop.type.nullable <;> rcases ha : prop.type.array <;>
      simp_all [Property.typeIsNullable]
  · have hnot : prop.isPrimary = false := by
      by_contra hp
      rcases hprimary' (by simpa using hp) with hp | hp <;> rw [hobject] at hp <;> cases hp
    simp_all [Property.requiresIndex, Property.typeIsIndexable]
  · by_contra hne
    simp [hobject, hbase.1, hne] at hlink

end Validation

/-- A declared schema that passed validation. -/
structure Valid (schema : Schema) : Prop where
  declared : ∀ object ∈ schema.types, object.Declared
  ascending : SortedZip.Ascending ObjectSchema.name schema.types
  storable : ∀ object ∈ schema.types, ∀ prop ∈ object.persistedProperties, prop.Storable schema

theorem DeclaredSchema.valid (schema : DeclaredSchema) (h : schema.validate = []) :
    Valid schema.toSchema where
  declared := schema.declared
  ascending := Schema.ascending_of_validate h
  storable object hobject prop hprop := by
    obtain ⟨met, hmet⟩ := Schema.validateProperty_of_validate h hobject hprop
    have hdeclared := schema.declared object hobject
    exact storable_of_validateProperty (hdeclared.stored prop hprop)
      (schema.plainLists object hobject prop hprop) hmet

/-! ### The changes of a comparison -/

namespace Schema

/-- What the comparison appends at one stop of the walk. -/
def stopChanges : Option ObjectSchema × Option ObjectSchema → List SchemaChange
  | (some target, some existing) => compareColumns existing target
  | (some target, none) => [.addInitialProperties target]
  | (none, _) => []

def tableChanges (existing : Schema) (object : ObjectSchema) : List SchemaChange :=
  stopChanges (some object, existing.classNamed object.name)

def missingTables (existing target : Schema) : List SchemaChange :=
  target.types.flatMap fun object => missingTable (some object, existing.classNamed object.name)

section Compare

variable {removals : MoveRemovals} {existing target : Schema}

theorem addTable_of_mem_missingTables {change : SchemaChange}
    (h : change ∈ missingTables existing target) :
    ∃ object ∈ target.types, existing.classNamed object.name = none ∧
      change = .addTable object := by
  obtain ⟨object, hobject, hchange⟩ := List.mem_flatMap.mp h
  cases hfind : existing.classNamed object.name with
  | some other =>
    rw [hfind] at hchange
    cases hchange
  | none =>
    rw [hfind] at hchange
    exact ⟨object, hobject, hfind, List.mem_singleton.mp hchange⟩

/-- Without a removal there is nothing to move. -/
theorem move_eq_self {changes : List SchemaChange}
    (h : ∀ change ∈ changes, change.isRemoveProperty = false) :
    removals.move changes = changes := by
  obtain ⟨rest, hmove, hperm⟩ := removals.move_append changes [] h
  rw [List.append_nil] at hmove
  rw [hmove, hperm.eq_nil, List.append_nil]

theorem foldl_compareTables (removals : MoveRemovals)
    (stops : List (Option ObjectSchema × Option ObjectSchema)) {first : List SchemaChange}
    (rest : List SchemaChange) (hfirst : ∀ change ∈ first, change.isRemoveProperty = false) :
    ∃ rest', stops.foldl (compareTables removals) (first ++ rest) = first ++ rest' ∧
      rest'.Perm (rest ++ stops.flatMap stopChanges) ∧
      ((∀ change ∈ rest ++ stops.flatMap stopChanges, change.isRemoveProperty = false) →
        rest' = rest ++ stops.flatMap stopChanges) := by
  induction stops generalizing rest with
  | nil => exact ⟨rest, rfl, by simp, by simp⟩
  | cons stop stops ih =>
    -- one stop leaves what stands before alone and appends its changes
    obtain ⟨moved, hmoved, hperm, hsame⟩ :
        ∃ moved, compareTables removals (first ++ rest) stop = first ++ moved ∧
          moved.Perm (rest ++ stopChanges stop) ∧
          ((∀ change ∈ rest ++ stopChanges stop, change.isRemoveProperty = false) →
            moved = rest ++ stopChanges stop) := by
      rcases stop with ⟨_ | object, other⟩
      · exact ⟨rest, rfl, by simp [stopChanges], by simp [stopChanges]⟩
      · rcases other with _ | other
        · exact ⟨rest ++ [.addInitialProperties object], List.append_assoc _ _ _, .refl _,
            fun _ => rfl⟩
        · obtain ⟨moved, hmoved, hperm⟩ :=
            removals.move_append first (rest ++ compareColumns other object) hfirst
          rw [← List.append_assoc] at hmoved
          refine ⟨moved, hmoved, hperm, fun hnone => ?_⟩
          rw [move_eq_self, List.append_assoc] at hmoved
          · exact (List.append_cancel_left hmoved).symm
          · intro change hchange
            rw [List.append_assoc] at hchange
            exact (List.mem_append.mp hchange).elim (hfirst change) (hnone change)
    obtain ⟨rest', hrest, hperm', hsame'⟩ := ih moved
    rw [List.foldl_cons, hmoved, List.flatMap_cons, ← List.append_assoc]
    refine ⟨rest', hrest, hperm'.trans (hperm.append_right _), fun hnone => ?_⟩
    have hmove := hsame fun change hchange => hnone change (List.mem_append_left _ hchange)
    rw [hmove] at hsame'
    exact hsame' hnone

/-- The comparison: the missing tables, then the changes of each class; without a removal
    in the order of the classes. -/
theorem compare_spec (removals : MoveRemovals)
    (hexisting : SortedZip.Ascending ObjectSchema.name existing.types)
    (htarget : SortedZip.Ascending ObjectSchema.name target.types) :
    ∃ rest, compare removals existing target = missingTables existing target ++ rest ∧
      rest.Perm (target.types.flatMap (tableChanges existing)) ∧
      ((∀ change ∈ target.types.flatMap (tableChanges existing), change.isRemoveProperty = false) →
        rest = target.types.flatMap (tableChanges existing)) := by
  have hmissing : (zipMatching target existing).flatMap missingTable =
      missingTables existing target :=
    SortedZip.flatMap_zipMatching (fun _ => rfl) htarget hexisting
  have hchanges : (zipMatching target existing).flatMap stopChanges =
      target.types.flatMap (tableChanges existing) :=
    SortedZip.flatMap_zipMatching (fun _ => rfl) htarget hexisting
  have hfirst : ∀ change ∈ missingTables existing target, change.isRemoveProperty = false := by
    intro change hchange
    obtain ⟨object, -, -, rfl⟩ := addTable_of_mem_missingTables hchange
    rfl
  have h := foldl_compareTables removals (zipMatching target existing) [] hfirst
  rw [List.nil_append, List.append_nil, hchanges] at h
  rw [compare, hmissing]
  exact h

end Compare

end Schema

/-! ### The shape of a class -/

/-- What only a migration can change about a class: its primary key and the type of each of
    its properties. -/
@[ext] structure Shape where
  primaryKey : String
  properties : Finmap fun _ : String => PropertyType × String

namespace ObjectSchema

def shape (object : ObjectSchema) : Shape where
  primaryKey := object.primaryKey
  properties := KeyedTable.tabulate Property.name (fun prop => (prop.type, prop.objectType))
    object.persistedProperties

/-- A class as it is read from a file. -/
structure Stored (object : ObjectSchema) : Prop where
  computed : object.computedProperties = []
  names_nodup : (object.persistedProperties.map Property.name).Nodup
  isPrimary : ∀ prop ∈ object.persistedProperties, prop.isPrimary → prop.name = object.primaryKey

/-- Whether the property of that name requires an index. -/
def requiresIndexAt (object : ObjectSchema) (name : String) : Bool :=
  match object.propertyForName name with
  | some prop => prop.requiresIndex
  | none => false

end ObjectSchema

namespace ObjectSchema

variable {object existing target : ObjectSchema} {prop : Property}

theorem Declared.persisted_nodup (h : object.Declared) :
    (object.persistedProperties.map Property.name).Nodup := by
  have hnodup := h.names_nodup
  rw [List.map_append] at hnodup
  exact hnodup.of_append_left

theorem Declared.ne_of_computed (h : object.Declared) {computed : Property}
    (hcomputed : computed ∈ object.computedProperties) (hprop : prop ∈ object.persistedProperties) :
    computed.name ≠ prop.name := by
  have hnodup := h.names_nodup
  rw [List.map_append] at hnodup
  intro heq
  exact (List.disjoint_of_nodup_append hnodup) (List.mem_map_of_mem hprop)
    (heq ▸ List.mem_map_of_mem hcomputed)

theorem Declared.propertyForName (h : object.Declared) (hprop : prop ∈ object.persistedProperties) :
    object.propertyForName prop.name = some prop := by
  rw [ObjectSchema.propertyForName,
    (KeyedTable.find?_key_eq_some h.persisted_nodup).mpr ⟨hprop, rfl⟩]
  rfl

theorem Declared.requiresIndexAt (h : object.Declared) (hprop : prop ∈ object.persistedProperties) :
    object.requiresIndexAt prop.name = prop.requiresIndex := by
  rw [ObjectSchema.requiresIndexAt, h.propertyForName hprop]

theorem Declared.not_computed (h : object.Declared) (hprop : prop ∈ object.persistedProperties) :
    object.propertyIsComputed prop = false := by
  apply List.any_eq_false.mpr
  intro computed hcomputed
  simp [Property.same, h.ne_of_computed hcomputed hprop]

theorem Property.same_self (prop : Property) : prop.same prop = true := by
  simp [Property.same]

/-- A property that is found and not computed is stored. -/
theorem Declared.mem_of_not_computed {name : String}
    (hfind : object.propertyForName name = some prop)
    (hnot : object.propertyIsComputed prop = false) :
    prop ∈ object.persistedProperties ∧ prop.name = name := by
  rcases Option.or_eq_some_iff.mp hfind with hfind | ⟨-, hfind⟩
  · exact ⟨List.mem_of_find?_eq_some hfind, by simpa using List.find?_some hfind⟩
  · have hself := List.any_eq_false.mp hnot prop (List.mem_of_find?_eq_some hfind)
    exact absurd (Property.same_self prop) (by simpa using hself)

theorem Stored.propertyForName (h : object.Stored) {name : String} :
    object.propertyForName name = some prop ↔
      prop ∈ object.persistedProperties ∧ prop.name = name := by
  rw [ObjectSchema.propertyForName, h.computed, List.find?_nil, Option.or_none,
    KeyedTable.find?_key_eq_some h.names_nodup]

theorem lookup_properties (h : (object.persistedProperties.map Property.name).Nodup) {name : String}
    {type : PropertyType × String} :
    object.shape.properties.lookup name = some type ↔
      ∃ prop ∈ object.persistedProperties, prop.name = name ∧ (prop.type, prop.objectType) = type :=
  KeyedTable.lookup_tabulate h

/-- Of one shape, the property of the file and that of the target have one type. -/
theorem exists_of_shape_eq (he : existing.Stored) (ht : target.Declared)
    (hshape : existing.shape = target.shape) (hprop : prop ∈ existing.persistedProperties) :
    ∃ other ∈ target.persistedProperties, other.name = prop.name ∧ other.type = prop.type ∧
      other.objectType = prop.objectType := by
  have hlookup : existing.shape.properties.lookup prop.name = some (prop.type, prop.objectType) :=
    (lookup_properties he.names_nodup).mpr ⟨prop, hprop, rfl, rfl⟩
  rw [hshape] at hlookup
  obtain ⟨other, hother, hname, htype⟩ := (lookup_properties ht.persisted_nodup).mp hlookup
  exact ⟨other, hother, hname, congrArg Prod.fst htype, congrArg Prod.snd htype⟩

end ObjectSchema

/-! ### Comparing classes of one shape -/

/-- The index that is missing or not wanted any more. -/
def reindex (existing : ObjectSchema) (required : Bool) (current : Property) : List SchemaChange :=
  if current.isIndexed = required then []
  else if required then [.addIndex existing current]
  else [.removeIndex existing current]

section Columns

variable {existing target : ObjectSchema} {prop : Property}

theorem compareProperty_of_shape (he : existing.Stored) (ht : target.Declared)
    (hshape : existing.shape = target.shape) (hprop : prop ∈ existing.persistedProperties) :
    compareProperty existing target prop =
      reindex existing (target.requiresIndexAt prop.name) prop := by
  obtain ⟨other, hother, hname, htype, hobject⟩ :=
    ObjectSchema.exists_of_shape_eq he ht hshape hprop
  have hfind : target.propertyForName prop.name = some other := hname ▸ ht.propertyForName hother
  have hrequired : target.requiresIndexAt prop.name = other.requiresIndex :=
    hname ▸ ht.requiresIndexAt hother
  -- a primary key of the file is one of the target, so it keeps its index
  have hprimary : other.requiresIndex = false → prop.isPrimary = false := by
    intro hnone
    by_contra hp
    have hkey : other.name = target.primaryKey := by
      rw [hname, he.isPrimary prop hprop (by simpa using hp)]
      exact congrArg Shape.primaryKey hshape
    have := (ht.isPrimary other hother).mpr hkey
    simp [Property.requiresIndex, this] at hnone
  rw [hrequired, compareProperty, hfind]
  simp only [ht.not_computed hother, htype, hobject, reindex]
  cases hr : other.requiresIndex with
  | true => cases prop.isIndexed <;> simp
  | false => cases hi : prop.isIndexed <;> simp [Property.requiresIndex, hi, hprimary hr]

/-- Between classes of one shape only indexes are left to change. -/
theorem compareColumns_of_shape (he : existing.Stored) (ht : target.Declared)
    (hshape : existing.shape = target.shape) :
    compareColumns existing target =
      existing.persistedProperties.flatMap fun prop =>
        reindex existing (target.requiresIndexAt prop.name) prop := by
  have hkey : existing.primaryKey = target.primaryKey := congrArg Shape.primaryKey hshape
  have hnew : (target.persistedProperties.filter fun prop =>
      (existing.propertyForName prop.name).isNone) = [] := by
    apply List.filter_eq_nil_iff.mpr
    intro prop hprop
    have hlookup : target.shape.properties.lookup prop.name = some (prop.type, prop.objectType) :=
      (ObjectSchema.lookup_properties ht.persisted_nodup).mpr ⟨prop, hprop, rfl, rfl⟩
    rw [← hshape] at hlookup
    obtain ⟨other, hother, hname, -⟩ := (ObjectSchema.lookup_properties he.names_nodup).mp hlookup
    simp [he.propertyForName.mpr ⟨hother, hname⟩]
  rw [compareColumns, hnew, if_neg (not_not.mpr hkey), List.map_nil, List.append_nil,
    List.append_nil]
  exact List.flatMap_congr fun prop hprop => compareProperty_of_shape he ht hshape hprop

theorem type_eq_of_needsMigration (hnone : ∀ change ∈ compareProperty existing target prop,
    change.needsMigration = false) :
    ∃ other ∈ target.persistedProperties, other.name = prop.name ∧ other.type = prop.type ∧
      other.objectType = prop.objectType := by
  cases hfind : target.propertyForName prop.name with
  | none => simp [compareProperty, hfind, SchemaChange.needsMigration] at hnone
  | some other =>
    rw [compareProperty, hfind] at hnone
    dsimp only at hnone
    split at hnone
    · simp [SchemaChange.needsMigration] at hnone
    split at hnone
    · simp [SchemaChange.needsMigration] at hnone
    rename_i hnot htype
    simp only [not_or, not_not] at htype
    have hnullable : prop.type.nullable = other.type.nullable := by
      by_contra hne
      rw [if_pos hne] at hnone
      cases hn : prop.type.nullable with
      | true =>
        have h := hnone (.makePropertyRequired existing prop) (by simp [hn])
        cases h
      | false =>
        have h := hnone (.makePropertyNullable existing prop) (by simp [hn])
        cases h
    obtain ⟨hmem, hname⟩ := ObjectSchema.Declared.mem_of_not_computed hfind (by simpa using hnot)
    refine ⟨other, hmem, hname, ?_, htype.2.1.symm⟩
    exact PropertyType.ext htype.1.symm hnullable.symm htype.2.2.symm

/-- Where the shapes differ, something needs a migration. -/
theorem shape_eq_of_needsMigration (he : existing.Stored) (ht : target.Declared)
    (hnone : ∀ change ∈ compareColumns existing target, change.needsMigration = false) :
    existing.shape = target.shape := by
  have hproperty : ∀ prop ∈ existing.persistedProperties,
      ∃ other ∈ target.persistedProperties, other.name = prop.name ∧ other.type = prop.type ∧
        other.objectType = prop.objectType := by
    intro prop hprop
    apply type_eq_of_needsMigration
    intro change hchange
    exact hnone change (List.mem_append_left _ (List.mem_append_left _
      (List.mem_flatMap_of_mem hprop hchange)))
  have hkey : existing.primaryKey = target.primaryKey := by
    by_contra hne
    have h := hnone (.changePrimaryKey existing target.primaryKeyProperty)
      (by simp [compareColumns, hne])
    cases h
  have hnew : ∀ other ∈ target.persistedProperties,
      ∃ prop ∈ existing.persistedProperties, prop.name = other.name := by
    intro other hother
    cases hfind : existing.propertyForName other.name with
    | some prop => exact ⟨prop, he.propertyForName.mp hfind⟩
    | none =>
      have h := hnone (.addProperty existing other) (by simp [compareColumns, hother, hfind])
      cases h
  apply Shape.ext hkey
  apply Finmap.ext_lookup
  intro name
  apply Option.ext
  intro type
  rw [ObjectSchema.lookup_properties he.names_nodup,
    ObjectSchema.lookup_properties ht.persisted_nodup]
  constructor
  · rintro ⟨prop, hprop, rfl, rfl⟩
    obtain ⟨other, hother, hname, htype, hobject⟩ := hproperty prop hprop
    exact ⟨other, hother, hname, by rw [htype, hobject]⟩
  · rintro ⟨other, hother, rfl, rfl⟩
    obtain ⟨prop, hprop, hname⟩ := hnew other hother
    obtain ⟨other', hother', hname', htype, hobject⟩ := hproperty prop hprop
    have hsame : other' = other :=
      List.inj_on_of_nodup_map ht.persisted_nodup hother' hother (hname'.trans hname)
    subst hsame
    exact ⟨prop, hprop, hname, by rw [htype, hobject]⟩

end Columns

end ObjectStore

end W3Stats

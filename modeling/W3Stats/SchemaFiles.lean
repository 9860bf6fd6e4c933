import W3Stats.SchemaChanges

/-!
# The classes of a file

What `schemaFromGroup` reads from a file whose names are distinct: one class for each
table of a class, with the properties of its columns.
-/

namespace W3Stats

namespace ObjectStore

/-! ### Table names -/

@[simp] theorem objectTypeForTableName_tableName (name : String) :
    objectTypeForTableName (tableNameForObjectType name) = name := by
  simp [objectTypeForTableName, tableNameForObjectType]

theorem tableName_eq_iff {name tableName : String} (hname : name ≠ "") :
    tableNameForObjectType name = tableName ↔ name = objectTypeForTableName tableName := by
  constructor
  · rintro rfl
    rw [objectTypeForTableName_tableName]
  · intro h
    unfold objectTypeForTableName at h
    split at h
    · rename_i hprefix
      obtain ⟨rest, hrest⟩ := List.isPrefixOf_iff_prefix.mp hprefix
      rw [h, tableNameForObjectType]
      apply String.toList_inj.mp
      rw [String.toList_append, String.toList_ofList, ← hrest, List.drop_left]
    · exact absurd h hname

theorem tableName_injective {name other : String}
    (h : tableNameForObjectType name = tableNameForObjectType other) : name = other := by
  have h' := congrArg objectTypeForTableName h
  rwa [objectTypeForTableName_tableName, objectTypeForTableName_tableName] at h'

/-! ### Classes read from tables -/

/-- The columns that make a property. -/
def Column.isVisible (column : Column) : Bool :=
  decide (column.name ≠ objectIdColumnName) && column.type.isPersisted

/-- The property of a column. -/
def Column.property (column : Column) (index : Nat) : Property where
  name := column.name
  type := fromCoreType column.type
  objectType := column.type.objectType
  isIndexed := column.indexed
  tableColumn := some index

theorem propertyForColumnIndex_eq (column : Column) (index : Nat) :
    propertyForColumnIndex column index =
      if column.isVisible then some (column.property index) else none := by
  unfold propertyForColumnIndex Column.isVisible
  by_cases hname : column.name = objectIdColumnName
  · simp [hname]
  · by_cases htype : column.type.isPersisted
    · simp [hname, htype, Column.property]
    · simp [hname, htype]

/-- `set_primary_key_property` marks one property. -/
def markPrimary (primaryKey : String) (prop : Property) : Property :=
  if primaryKey ≠ "" ∧ prop.name = primaryKey then { prop with isPrimary := true } else prop

@[simp] theorem markPrimary_name (primaryKey : String) (prop : Property) :
    (markPrimary primaryKey prop).name = prop.name := by
  unfold markPrimary
  split <;> rfl

/-- With distinct names the first property of a name is the only one. -/
theorem setFirst_eq_map {name : String} {f : Property → Property} {props : List Property}
    (h : (props.map Property.name).Nodup) :
    setFirst (fun prop => decide (prop.name = name)) f props =
      props.map fun prop => if prop.name = name then f prop else prop := by
  induction props with
  | nil => rfl
  | cons prop props ih =>
    rw [List.map_cons] at h
    obtain ⟨hnot, hprops⟩ := List.nodup_cons.mp h
    rw [setFirst, List.map_cons]
    by_cases hname : prop.name = name
    · have hrest : (props.map fun prop => if prop.name = name then f prop else prop) = props := by
        conv_rhs => rw [← List.map_id props]
        apply List.map_congr_left
        intro other hother
        apply if_neg
        intro hother'
        exact hnot (List.mem_map.mpr ⟨other, hother, hother'.trans hname.symm⟩)
      rw [if_pos (by simpa using hname), hrest, if_pos hname]
    · rw [if_neg (by simpa using hname), ih hprops, if_neg hname]

theorem setPrimaryKeyProperty_eq_map {primaryKey : String} {props : List Property}
    (h : (props.map Property.name).Nodup) :
    setPrimaryKeyProperty primaryKey props = props.map (markPrimary primaryKey) := by
  unfold setPrimaryKeyProperty
  by_cases hkey : primaryKey = ""
  · rw [if_pos hkey]
    conv_lhs => rw [← List.map_id props]
    apply List.map_congr_left
    intro prop _
    exact (if_neg fun h => h.1 hkey).symm
  · rw [if_neg hkey, setFirst_eq_map h]
    apply List.map_congr_left
    intro prop _
    simp only [markPrimary, ne_eq, hkey, not_false_eq_true, true_and]

/-- The names of the columns, without that of the object IDs. -/
def Table.names (table : Table) : List String :=
  (table.columns.filter fun column => decide (column.name ≠ objectIdColumnName)).map Column.name

/-- The properties of a table before the primary key is marked. -/
def Table.properties (table : Table) : List Property :=
  table.columns.zipIdx.filterMap fun entry => propertyForColumnIndex entry.1 entry.2

/-- What does not depend on the position is read from the columns in their order. -/
theorem map_filterMap_zipIdx {β : Type} {f : Property → β} {g : Column → β}
    (hfg : ∀ column index, f (column.property index) = g column)
    (columns : List Column) (start : Nat) :
    ((columns.zipIdx start).filterMap fun entry => propertyForColumnIndex entry.1 entry.2).map f =
      (columns.filter Column.isVisible).map g := by
  induction columns generalizing start with
  | nil => rfl
  | cons column columns ih =>
    rw [List.zipIdx_cons, List.filterMap_cons, propertyForColumnIndex_eq]
    cases hvisible : column.isVisible with
    | false =>
      rw [List.filter_cons_of_neg (by simp [hvisible])]
      exact ih (start + 1)
    | true =>
      rw [List.filter_cons_of_pos hvisible, if_pos rfl, List.map_cons, List.map_cons, hfg]
      exact congrArg _ (ih (start + 1))

section Read

variable {group : Group} {name : String} {table : Table}

theorem nodup_properties (h : table.names.Nodup) : (table.properties.map Property.name).Nodup := by
  have hnames : table.properties.map Property.name =
      (table.columns.filter Column.isVisible).map Column.name :=
    map_filterMap_zipIdx (fun _ _ => rfl) table.columns 0
  rw [hnames]
  refine List.Nodup.sublist (List.Sublist.map _ ?_) h
  apply List.monotone_filter_right
  intro column hvisible
  simp only [Column.isVisible, Bool.and_eq_true] at hvisible
  exact hvisible.1

theorem persisted_ofTable (h : table.names.Nodup) :
    (ObjectSchema.ofTable group name table).persistedProperties =
      table.properties.map (markPrimary (group.getPrimaryKeyForObject name)) :=
  setPrimaryKeyProperty_eq_map (nodup_properties h)

theorem mem_properties {prop : Property} :
    prop ∈ table.properties ↔ ∃ (index : Nat) (column : Column),
      table.columns[index]? = some column ∧ column.isVisible ∧ prop = column.property index := by
  simp only [Table.properties, List.mem_filterMap, Prod.exists, List.mem_zipIdx_iff_getElem?,
    propertyForColumnIndex_eq, Option.ite_none_right_eq_some, Option.some.injEq]
  constructor
  · rintro ⟨column, index, hcolumn, hvisible, rfl⟩
    exact ⟨index, column, hcolumn, hvisible, rfl⟩
  · rintro ⟨index, column, hcolumn, hvisible, rfl⟩
    exact ⟨column, index, hcolumn, hvisible, rfl⟩

theorem stored_ofTable (group : Group) (name : String) (h : table.names.Nodup) :
    (ObjectSchema.ofTable group name table).Stored where
  computed := rfl
  names_nodup := by
    rw [persisted_ofTable h, List.map_map]
    simpa [Function.comp_def] using nodup_properties h
  isPrimary := by
    intro prop hprop
    rw [persisted_ofTable h] at hprop
    obtain ⟨read, hread, rfl⟩ := List.mem_map.mp hprop
    obtain ⟨index, column, -, -, rfl⟩ := mem_properties.mp hread
    unfold markPrimary
    split
    · rename_i hkey
      exact fun _ => hkey.2
    · intro hprimary
      cases hprimary

/-- The name and the type of the property a column makes. -/
def Column.signature (column : Column) : String × PropertyType × String :=
  (column.name, fromCoreType column.type, column.type.objectType)

/-- A property of a class is read from a column. -/
theorem exists_column (h : table.names.Nodup) {prop : Property}
    (hprop : prop ∈ (ObjectSchema.ofTable group name table).persistedProperties) :
    ∃ (index : Nat) (column : Column), table.columns[index]? = some column ∧ column.isVisible ∧
      column.signature = (prop.name, prop.type, prop.objectType) ∧
        prop.isIndexed = column.indexed ∧ prop.tableColumn = some index := by
  rw [persisted_ofTable h] at hprop
  obtain ⟨read, hread, rfl⟩ := List.mem_map.mp hprop
  obtain ⟨index, column, hcolumn, hvisible, rfl⟩ := mem_properties.mp hread
  refine ⟨index, column, hcolumn, hvisible, ?_⟩
  unfold markPrimary
  split <;> exact ⟨rfl, rfl, rfl⟩

/-- The shape does not depend on the positions of the columns, nor on their indexes. -/
theorem shape_ofTable (h : table.names.Nodup) :
    (ObjectSchema.ofTable group name table).shape =
      ⟨group.getPrimaryKeyForObject name,
        KeyedTable.tabulate Prod.fst Prod.snd
          ((table.columns.filter Column.isVisible).map Column.signature)⟩ := by
  have hread : table.properties.map (fun prop => (prop.name, prop.type, prop.objectType)) =
      (table.columns.filter Column.isVisible).map Column.signature :=
    map_filterMap_zipIdx (fun _ _ => rfl) table.columns 0
  have hmark : (fun prop : Property => (prop.name, prop.type, prop.objectType)) ∘
      markPrimary (group.getPrimaryKeyForObject name) =
        fun prop => (prop.name, prop.type, prop.objectType) := by
    funext prop
    simp only [Function.comp_apply, markPrimary]
    split <;> rfl
  have hpersisted : (ObjectSchema.ofTable group name table).persistedProperties.map
      (fun prop => (prop.name, prop.type, prop.objectType)) =
        (table.columns.filter Column.isVisible).map Column.signature := by
    rw [persisted_ofTable h, List.map_map, hmark, hread]
  unfold ObjectSchema.shape KeyedTable.tabulate
  rw [← hpersisted, List.map_map]
  rfl

end Read

/-! ### Sound files -/

/-- Names of tables and of columns are distinct, a row of the `pk` table is about a class
    with a table, and a file without a version has no class. -/
structure Group.Sound (group : Group) : Prop where
  tables_nodup : (group.tables.map Table.name).Nodup
  names_nodup : ∀ table ∈ group.tables, table.names.Nodup
  pk_table : ∀ row ∈ group.pk, tableNameForObjectType row.1 ∈ group.tables.map Table.name
  unversioned : group.version = none →
    ∀ table ∈ group.tables, objectTypeForTableName table.name = ""

theorem Group.Sound.empty : Group.empty.Sound where
  tables_nodup := List.nodup_nil
  names_nodup _ h := by cases h
  pk_table _ h := by cases h
  unversioned _ _ h := by cases h

section Sound

variable {group : Group}

theorem Group.Sound.getTable (h : group.Sound) {name : String} {table : Table} :
    group.getTable name = some table ↔ table ∈ group.tables ∧ table.name = name :=
  KeyedTable.find?_key_eq_some h.tables_nodup

theorem isSome_getTable {name : String} :
    (group.getTable name).isSome ↔ name ∈ group.tables.map Table.name := by
  simp [Group.getTable, List.mem_map]

theorem objectSchemaOfTable_eq_some {table : Table} {object : ObjectSchema} :
    objectSchemaOfTable group table = some object ↔
      object.name ≠ "" ∧ table.name = tableNameForObjectType object.name ∧
        object = ObjectSchema.ofTable group object.name table := by
  unfold objectSchemaOfTable
  split
  · rename_i hempty
    constructor
    · intro h
      cases h
    · rintro ⟨hname, htable, -⟩
      rw [htable, objectTypeForTableName_tableName] at hempty
      exact absurd hempty hname
  · rename_i hname
    constructor
    · intro h
      cases h
      exact ⟨hname, ((tableName_eq_iff hname).mpr rfl).symm, rfl⟩
    · rintro ⟨-, htable, hobject⟩
      rw [htable, objectTypeForTableName_tableName, ← hobject]

theorem mem_schemaFromGroup {object : ObjectSchema} :
    object ∈ (schemaFromGroup group).types ↔ object.name ≠ "" ∧ ∃ table ∈ group.tables,
      table.name = tableNameForObjectType object.name ∧
        object = ObjectSchema.ofTable group object.name table := by
  unfold schemaFromGroup Schema.ofTypes
  simp only [List.mem_insertionSort, List.mem_filterMap, objectSchemaOfTable_eq_some]
  constructor
  · rintro ⟨table, htable, hname, htableName, hobject⟩
    exact ⟨hname, table, htable, htableName, hobject⟩
  · rintro ⟨hname, table, htable, htableName, hobject⟩
    exact ⟨table, htable, hname, htableName, hobject⟩

theorem Group.Sound.nodup_schema (h : group.Sound) :
    ((schemaFromGroup group).types.map ObjectSchema.name).Nodup := by
  have hperm : (schemaFromGroup group).types.Perm
      (group.tables.filterMap (objectSchemaOfTable group)) := List.perm_insertionSort _ _
  rw [(hperm.map ObjectSchema.name).nodup_iff]
  apply List.pairwise_map.mpr
  apply List.pairwise_filterMap.mpr
  apply (List.pairwise_map.mp h.tables_nodup).imp
  intro table other hne object hobject object' hobject' heq
  have htable := (objectSchemaOfTable_eq_some.mp hobject).2.1
  have htable' := (objectSchemaOfTable_eq_some.mp hobject').2.1
  exact hne (by rw [htable, htable', heq])

theorem Group.Sound.ascending (h : group.Sound) :
    SortedZip.Ascending ObjectSchema.name (schemaFromGroup group).types := by
  have hnodup := List.pairwise_map.mp h.nodup_schema
  exact ((schemaFromGroup group).sorted.and hnodup).imp fun hle => lt_of_le_of_ne hle.1 hle.2

theorem Group.Sound.classNamed_eq_some (h : group.Sound) {name : String} {object : ObjectSchema} :
    (schemaFromGroup group).classNamed name = some object ↔ name ≠ "" ∧ ∃ table ∈ group.tables,
      table.name = tableNameForObjectType name ∧
        object = ObjectSchema.ofTable group name table := by
  rw [Schema.classNamed, KeyedTable.find?_key_eq_some h.nodup_schema, mem_schemaFromGroup]
  constructor
  · rintro ⟨hobject, rfl⟩
    exact hobject
  · rintro ⟨hname, table, htable, htableName, rfl⟩
    exact ⟨⟨hname, table, htable, htableName, rfl⟩, rfl⟩

theorem Group.Sound.classNamed_eq_none (h : group.Sound) {name : String} (hname : name ≠ "") :
    (schemaFromGroup group).classNamed name = none ↔
      tableNameForObjectType name ∉ group.tables.map Table.name := by
  rw [← not_iff_not, ← ne_eq, Option.ne_none_iff_exists', not_not, List.mem_map]
  constructor
  · rintro ⟨object, hobject⟩
    obtain ⟨-, table, htable, htableName, -⟩ := h.classNamed_eq_some.mp hobject
    exact ⟨table, htable, htableName⟩
  · rintro ⟨table, htable, htableName⟩
    exact ⟨_, h.classNamed_eq_some.mpr ⟨hname, table, htable, htableName, rfl⟩⟩

theorem Group.Sound.stored (h : group.Sound) {name : String} {object : ObjectSchema}
    (hfind : (schemaFromGroup group).classNamed name = some object) :
    object.Stored ∧ object.name = name ∧
      tableNameForObjectType name ∈ group.tables.map Table.name := by
  obtain ⟨-, table, htable, htableName, rfl⟩ := h.classNamed_eq_some.mp hfind
  exact ⟨stored_ofTable group name (h.names_nodup table htable), rfl,
    List.mem_map.mpr ⟨table, htable, htableName⟩⟩

end Sound

end ObjectStore

end W3Stats

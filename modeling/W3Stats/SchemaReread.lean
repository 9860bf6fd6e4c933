import W3Stats.SchemaUpdate

/-!
# The updated file read back

It has the classes of the schema, in their shape and with their indexes, so that nothing
is left to change, and every other class as before.
-/

namespace W3Stats

namespace ObjectStore

variable {sync : SyncTables} {removals : MoveRemovals} {group : Group} {schema : Schema}
  {object : ObjectSchema}

/-! ### Names -/

@[simp] theorem updatedTable_name (schema : Schema) (table : Table) :
    (updatedTable schema table).name = table.name := by
  unfold updatedTable
  split <;> rfl

theorem reindexColumn_name (requires : String → Bool) (column : Column) :
    (reindexColumn requires column).name = column.name := by
  unfold reindexColumn
  split <;> rfl

@[simp] theorem reindexColumn_isVisible (requires : String → Bool) (column : Column) :
    (reindexColumn requires column).isVisible = column.isVisible := by
  unfold reindexColumn
  split <;> rfl

@[simp] theorem reindexColumn_signature (requires : String → Bool) (column : Column) :
    (reindexColumn requires column).signature = column.signature := by
  unfold reindexColumn
  split <;> rfl

theorem names_updatedTable (schema : Schema) (table : Table) :
    (updatedTable schema table).names = table.names := by
  unfold updatedTable Table.names
  split
  · rename_i object _
    simp only [List.filter_map, List.map_map]
    have hname : Column.name ∘ reindexColumn object.requiresIndexAt = Column.name :=
      funext fun column => reindexColumn_name _ column
    have hkeep : (fun column : Column => decide (column.name ≠ objectIdColumnName)) ∘
        reindexColumn object.requiresIndexAt =
          fun column => decide (column.name ≠ objectIdColumnName) :=
      funext fun column => by simp only [Function.comp_apply, reindexColumn_name]
    rw [hname, hkeep]
  · rfl

/-- The properties of a new class in the order of its columns. -/
def columnProperties (object : ObjectSchema) : List Property :=
  object.primaryKeyProperty.toList ++
    object.persistedProperties.filter fun prop => !prop.isPrimary

theorem ObjectSchema.Declared.perm_columnProperties (h : object.Declared) :
    (columnProperties object).Perm object.persistedProperties := by
  have hprimary : object.persistedProperties.filter Property.isPrimary =
      object.primaryKeyProperty.toList := by
    -- with distinct names only one property has that of the primary key
    have hmem : ∀ prop ∈ object.persistedProperties, prop.isPrimary →
        object.primaryKeyProperty = some prop := fun prop => h.primaryKeyProperty_of_isPrimary
    cases hkey : object.primaryKeyProperty with
    | none =>
      apply List.filter_eq_nil_iff.mpr
      intro prop hprop hprimary
      rw [hmem prop hprop hprimary] at hkey
      cases hkey
    | some prop =>
      obtain ⟨hprop, hprimary, -⟩ := h.primaryKeyProperty_eq_some hkey
      have hnodup : (object.persistedProperties.filter Property.isPrimary).Nodup :=
        (List.Nodup.of_map _ h.persisted_nodup).filter _
      apply List.perm_singleton.mp
      apply (List.perm_ext_iff_of_nodup hnodup (List.nodup_singleton prop)).mpr
      intro other
      rw [List.mem_filter, List.mem_singleton]
      constructor
      · rintro ⟨hother, hprimary'⟩
        exact Option.some.inj ((hmem other hother hprimary').symm.trans hkey)
      · rintro rfl
        exact ⟨hprop, hprimary⟩
  rw [columnProperties, ← hprimary]
  exact List.filter_append_perm _ _

theorem columns_initialTable :
    (initialTable sync object).columns =
      sync.objectIdColumns ++ (columnProperties object).map Property.column := by
  simp [initialTable, bornTable, initialColumns, columnProperties, List.map_append]

theorem filter_columns_initialTable {p : Column → Bool} (h : object.Declared)
    (hhidden : ∀ column ∈ sync.objectIdColumns, p column = false)
    (hp : ∀ prop ∈ object.persistedProperties, p prop.column) :
    (initialTable sync object).columns.filter p =
      (columnProperties object).map Property.column := by
  rw [columns_initialTable, List.filter_append, List.filter_eq_nil_iff.mpr, List.nil_append]
  · apply List.filter_eq_self.mpr
    intro column hcolumn
    obtain ⟨prop, hprop, rfl⟩ := List.mem_map.mp hcolumn
    exact hp prop (h.perm_columnProperties.mem_iff.mp hprop)
  · intro column hcolumn
    simp [hhidden column hcolumn]

theorem names_initialTable (h : object.Declared) :
    (initialTable sync object).names.Perm (object.persistedProperties.map Property.name) := by
  unfold Table.names
  rw [filter_columns_initialTable h]
  · rw [List.map_map]
    exact h.perm_columnProperties.map Property.name
  · intro column hcolumn
    simp [sync.objectIdColumns_name column hcolumn]
  · intro prop hprop
    exact decide_eq_true (h.ne_objectId prop hprop)

theorem visible_initialTable (h : object.Declared) :
    (initialTable sync object).columns.filter Column.isVisible =
      (columnProperties object).map Property.column := by
  apply filter_columns_initialTable h
  · intro column hcolumn
    simp [Column.isVisible, sync.objectIdColumns_name column hcolumn]
  · intro prop hprop
    exact isVisible_column (h.ne_objectId prop hprop)

theorem updated_sound (sync : SyncTables) (hgroup : group.Sound) (h : Valid schema) :
    (updated sync group schema).Sound where
  tables_nodup := by
    unfold updated
    rw [List.map_append, List.map_map, List.map_map]
    have hold : Table.name ∘ updatedTable schema = Table.name :=
      funext fun table => updatedTable_name schema table
    rw [hold]
    refine List.Nodup.append hgroup.tables_nodup ?_ ?_
    · have hnew : ((newClasses group schema).map ObjectSchema.name).Nodup :=
        List.Nodup.sublist (List.filter_sublist.map _) h.ascending.nodup
      apply List.pairwise_map.mpr
      exact (List.pairwise_map.mp hnew).imp fun hne heq => hne (tableName_injective heq)
    · intro name hname hnew
      obtain ⟨object, hobject, rfl⟩ := List.mem_map.mp hnew
      obtain ⟨hobject, hfind⟩ := mem_newClasses.mp hobject
      exact (hgroup.classNamed_eq_none (h.declared object hobject).name_ne).mp hfind hname
  names_nodup table htable := by
    rcases List.mem_append.mp htable with htable | htable
    · obtain ⟨old, hold, rfl⟩ := List.mem_map.mp htable
      rw [names_updatedTable]
      exact hgroup.names_nodup old hold
    · obtain ⟨object, hobject, rfl⟩ := List.mem_map.mp htable
      have hdeclared := h.declared object (mem_newClasses.mp hobject).1
      exact (names_initialTable hdeclared).nodup_iff.mpr hdeclared.persisted_nodup
  pk_table row hrow := by
    unfold updated at hrow ⊢
    rw [List.map_append, List.map_map, List.map_map]
    rcases List.mem_append.mp hrow with hrow | hrow
    · apply List.mem_append_left
      obtain ⟨table, htable, hname⟩ := List.mem_map.mp (hgroup.pk_table row hrow)
      exact List.mem_map.mpr ⟨table, htable, (updatedTable_name schema table).trans hname⟩
    · apply List.mem_append_right
      obtain ⟨object, hobject, hrow⟩ := List.mem_flatMap.mp hrow
      obtain ⟨prop, -, rfl⟩ := List.mem_map.mp hrow
      exact List.mem_map.mpr ⟨object, hobject, rfl⟩
  unversioned hversion := by cases hversion

/-! ### The primary keys -/

theorem getPrimaryKey_updated_of_not_mem {name : String}
    (hname : ∀ object ∈ newClasses group schema, object.name ≠ name) :
    (updated sync group schema).getPrimaryKeyForObject name =
      group.getPrimaryKeyForObject name := by
  have hnone : ((newClasses group schema).flatMap primaryKeyRow).find?
      (fun row => decide (row.1 = name)) = none := by
    apply List.find?_eq_none.mpr
    intro row hrow
    obtain ⟨object, hobject, hrow⟩ := List.mem_flatMap.mp hrow
    obtain ⟨prop, -, rfl⟩ := List.mem_map.mp hrow
    simpa using hname object hobject
  unfold Group.getPrimaryKeyForObject updated
  rw [List.find?_append, hnone, Option.or_none]

theorem getPrimaryKey_updated_of_mem (hgroup : group.Sound) (h : Valid schema)
    (hobject : object ∈ newClasses group schema) :
    (updated sync group schema).getPrimaryKeyForObject object.name = object.primaryKey := by
  obtain ⟨hmem, hfind⟩ := mem_newClasses.mp hobject
  have hdeclared := h.declared object hmem
  -- the file has no row about a class it does not have
  have hold : group.pk.find? (fun row => decide (row.1 = object.name)) = none := by
    apply List.find?_eq_none.mpr
    intro row hrow heq
    have htable := hgroup.pk_table row hrow
    rw [of_decide_eq_true heq] at htable
    exact (hgroup.classNamed_eq_none hdeclared.name_ne).mp hfind htable
  unfold Group.getPrimaryKeyForObject updated
  rw [List.find?_append, hold, Option.none_or]
  cases hrow : ((newClasses group schema).flatMap primaryKeyRow).find?
      fun row => decide (row.1 = object.name) with
  | some row =>
    have hname : row.1 = object.name := by simpa using List.find?_some hrow
    obtain ⟨other, hother, hmem'⟩ := List.mem_flatMap.mp (List.mem_of_find?_eq_some hrow)
    obtain ⟨prop, hprop, rfl⟩ := List.mem_map.mp hmem'
    have hsame : other = object := List.inj_on_of_nodup_map h.ascending.nodup
      (mem_newClasses.mp hother).1 hmem hname
    subst hsame
    exact (hdeclared.primaryKeyProperty_eq_some (Option.mem_toList.mp hprop)).2.2
  | none =>
    have hkey : object.primaryKeyProperty = none := by
      by_contra hsome
      obtain ⟨prop, hprop⟩ := Option.ne_none_iff_exists'.mp hsome
      have hmem' : (object.name, prop.name) ∈ (newClasses group schema).flatMap primaryKeyRow :=
        List.mem_flatMap.mpr ⟨object, hobject,
          List.mem_map.mpr ⟨prop, Option.mem_toList.mpr hprop, rfl⟩⟩
      exact absurd (List.find?_eq_none.mp hrow _ hmem') (by simp)
    rcases hdeclared.primaryKey with hempty | ⟨prop, hprop, hname⟩
    · exact hempty.symm
    · rw [ObjectSchema.primaryKeyProperty, ← hname, hdeclared.propertyForName hprop] at hkey
      cases hkey

/-! ### The classes of the updated file -/

/-- A table holds a class: in its shape, and each column with the index that is required. -/
structure Table.Holds (table : Table) (group : Group) (object : ObjectSchema) : Prop where
  mem : table ∈ group.tables
  name : table.name = tableNameForObjectType object.name
  names_nodup : table.names.Nodup
  shape : (ObjectSchema.ofTable group object.name table).shape = object.shape
  indexed : ∀ column ∈ table.columns, column.isVisible →
    column.indexed = object.requiresIndexAt column.name

theorem holds_updatedTable (hgroup : group.Sound) (h : Valid schema) (hagrees : Agrees group schema)
    (hobject : object ∈ schema.types) {table : Table} (htable : table ∈ group.tables)
    (hname : table.name = tableNameForObjectType object.name) :
    (updatedTable schema table).Holds (updated sync group schema) object := by
  have hne := (h.declared object hobject).name_ne
  have hnodup := hgroup.names_nodup table htable
  have hfind : (schemaFromGroup group).classNamed object.name =
      some (ObjectSchema.ofTable group object.name table) :=
    hgroup.classNamed_eq_some.mpr ⟨hne, table, htable, hname, rfl⟩
  have htypeName : objectTypeForTableName table.name = object.name := by
    rw [hname, objectTypeForTableName_tableName]
  have hself : schema.classNamed object.name = some object :=
    h.classNamed_eq_some.mpr ⟨hobject, rfl⟩
  have hupdated : updatedTable schema table =
      { table with columns := table.columns.map (reindexColumn object.requiresIndexAt) } := by
    rw [updatedTable, htypeName, hself]
  have hkey : (updated sync group schema).getPrimaryKeyForObject object.name =
      group.getPrimaryKeyForObject object.name := by
    apply getPrimaryKey_updated_of_not_mem
    intro other hother heq
    rw [← heq, (mem_newClasses.mp hother).2] at hfind
    cases hfind
  have hnodup' : (updatedTable schema table).names.Nodup := by rwa [names_updatedTable]
  have hcolumns : ((updatedTable schema table).columns.filter Column.isVisible).map
      Column.signature = (table.columns.filter Column.isVisible).map Column.signature := by
    have hvisible : Column.isVisible ∘ reindexColumn object.requiresIndexAt = Column.isVisible :=
      funext fun column => reindexColumn_isVisible _ column
    have hsignature : Column.signature ∘ reindexColumn object.requiresIndexAt = Column.signature :=
      funext fun column => reindexColumn_signature _ column
    rw [hupdated, List.filter_map, List.map_map, hvisible, hsignature]
  constructor
  · exact List.mem_append_left _ (List.mem_map_of_mem htable)
  · rw [updatedTable_name, hname]
  · exact hnodup'
  · rw [shape_ofTable hnodup', hcolumns, hkey, ← shape_ofTable hnodup]
    exact hagrees object hobject _ hfind
  · intro column hcolumn hvisible
    rw [hupdated] at hcolumn
    obtain ⟨old, -, rfl⟩ := List.mem_map.mp hcolumn
    rw [reindexColumn_isVisible] at hvisible
    simp [reindexColumn, hvisible]

theorem holds_initialTable (hgroup : group.Sound) (h : Valid schema)
    (hobject : object ∈ newClasses group schema) :
    (initialTable sync object).Holds (updated sync group schema) object := by
  have hmem := (mem_newClasses.mp hobject).1
  have hdeclared := h.declared object hmem
  have hnodup : (initialTable sync object).names.Nodup :=
    (names_initialTable hdeclared).nodup_iff.mpr hdeclared.persisted_nodup
  have hproperties : ∀ prop ∈ columnProperties object, prop ∈ object.persistedProperties :=
    fun prop hprop => hdeclared.perm_columnProperties.mem_iff.mp hprop
  have hsignatures : ((initialTable sync object).columns.filter Column.isVisible).map
      Column.signature =
        (columnProperties object).map fun prop => (prop.name, prop.type, prop.objectType) := by
    rw [visible_initialTable hdeclared, List.map_map]
    apply List.map_congr_left
    intro prop hprop
    exact signature_column (h.storable object hmem prop (hproperties prop hprop))
  constructor
  · exact List.mem_append_right _ (List.mem_map_of_mem hobject)
  · rfl
  · exact hnodup
  · rw [shape_ofTable hnodup, hsignatures, getPrimaryKey_updated_of_mem hgroup h hobject]
    have hperm := hdeclared.perm_columnProperties.map fun prop =>
      (prop.name, prop.type, prop.objectType)
    have hkeys : (((columnProperties object).map fun prop =>
        (prop.name, prop.type, prop.objectType)).map Prod.fst).Nodup := by
      rw [List.map_map]
      exact (hdeclared.perm_columnProperties.map Property.name).nodup_iff.mpr
        hdeclared.persisted_nodup
    rw [KeyedTable.tabulate_perm hperm hkeys]
    unfold ObjectSchema.shape KeyedTable.tabulate
    rw [List.map_map]
    rfl
  · intro column hcolumn hvisible
    have hfilter := List.mem_filter.mpr ⟨hcolumn, hvisible⟩
    rw [visible_initialTable hdeclared] at hfilter
    obtain ⟨prop, hprop, rfl⟩ := List.mem_map.mp hfilter
    exact (hdeclared.requiresIndexAt (hproperties prop hprop)).symm

/-- Every class of the schema has its table. -/
theorem exists_holds (sync : SyncTables) (hgroup : group.Sound) (h : Valid schema)
    (hagrees : Agrees group schema)
    (hobject : object ∈ schema.types) :
    ∃ table : Table, table.Holds (updated sync group schema) object := by
  cases hfind : (schemaFromGroup group).classNamed object.name with
  | none => exact ⟨_, holds_initialTable hgroup h (mem_newClasses.mpr ⟨hobject, hfind⟩)⟩
  | some existing =>
    obtain ⟨-, table, htable, hname, -⟩ := hgroup.classNamed_eq_some.mp hfind
    exact ⟨_, holds_updatedTable hgroup h hagrees hobject htable hname⟩

theorem Table.Holds.classNamed {table : Table} {file : Group} (hfile : file.Sound)
    (hholds : table.Holds file object) (hname : object.name ≠ "") :
    (schemaFromGroup file).classNamed object.name =
      some (ObjectSchema.ofTable file object.name table) :=
  hfile.classNamed_eq_some.mpr ⟨hname, table, hholds.mem, hholds.name, rfl⟩

theorem Table.Holds.compareColumns {table : Table} {file : Group} (hholds : table.Holds file object)
    (hdeclared : object.Declared) :
    compareColumns (ObjectSchema.ofTable file object.name table) object = [] := by
  rw [compareColumns_of_shape (stored_ofTable _ _ hholds.names_nodup) hdeclared hholds.shape]
  apply List.flatMap_eq_nil_iff.mpr
  intro prop hprop
  obtain ⟨index, column, hcolumn, hvisible, hsignature, hindexed, -⟩ :=
    exists_column hholds.names_nodup hprop
  have hname : column.name = prop.name := congrArg Prod.fst hsignature
  apply if_pos
  rw [hindexed, ← hname]
  exact hholds.indexed column (List.mem_of_getElem? hcolumn) hvisible

/-- A file that holds every class of a schema has nothing to change. -/
theorem compare_of_holds {file : Group} (hfile : file.Sound) (h : Valid schema)
    (hholds : ∀ object ∈ schema.types, ∃ table : Table, table.Holds file object) :
    (schemaFromGroup file).compare removals schema = [] := by
  obtain ⟨rest, hcompare, hperm, -⟩ :=
    Schema.compare_spec removals hfile.ascending h.ascending
  have hmissing : Schema.missingTables (schemaFromGroup file) schema = [] := by
    apply List.flatMap_eq_nil_iff.mpr
    intro object hobject
    obtain ⟨table, htable⟩ := hholds object hobject
    rw [htable.classNamed hfile (h.declared object hobject).name_ne]
    rfl
  have hchanges : schema.types.flatMap (Schema.tableChanges (schemaFromGroup file)) = [] := by
    apply List.flatMap_eq_nil_iff.mpr
    intro object hobject
    obtain ⟨table, htable⟩ := hholds object hobject
    have hdeclared := h.declared object hobject
    rw [Schema.tableChanges, htable.classNamed hfile hdeclared.name_ne]
    exact htable.compareColumns hdeclared
  rw [hchanges] at hperm
  rw [hcompare, hmissing, hperm.eq_nil, List.nil_append]

end ObjectStore

end W3Stats

import W3Stats.SchemaFiles

/-!
# The changes of a file, table by table

What the changes do that need no migration: tables are added, their columns appended,
and indexes set at the columns of a table that is there.
-/

namespace W3Stats

namespace ObjectStore

/-! ### The columns of one table -/

def Group.updateColumns (group : Group) (name : String) (f : List Column → List Column) : Group :=
  group.updateTable name fun table => { table with columns := f table.columns }

namespace Group

variable {group : Group} {name : String}

theorem updateColumns_updateColumns (f g : List Column → List Column) :
    (group.updateColumns name f).updateColumns name g = group.updateColumns name (g ∘ f) := by
  simp only [updateColumns, updateTable, List.map_map]
  congr 2
  funext table
  by_cases h : table.name = name <;> simp [h]

theorem updateColumns_self {f : List Column → List Column} (hf : ∀ columns, f columns = columns) :
    group.updateColumns name f = group := by
  simp [updateColumns, updateTable, hf]

@[simp] theorem names_updateColumns (f : List Column → List Column) :
    (group.updateColumns name f).tables.map Table.name = group.tables.map Table.name := by
  simp only [updateColumns, updateTable, List.map_map]
  apply List.map_congr_left
  intro table _
  by_cases h : table.name = name <;> simp [h]

end Group

theorem updateTableOf_eq {group : Group} {object : ObjectSchema}
    (h : tableNameForObjectType object.name ∈ group.tables.map Table.name)
    (f : List Column → List Column) :
    updateTableOf group object (fun table => { table with columns := f table.columns }) =
      .ok (group.updateColumns (tableNameForObjectType object.name) f) := by
  rw [updateTableOf, if_neg]
  · rfl
  · rw [Option.isNone_iff_eq_none, ← ne_eq, ← Option.isSome_iff_ne_none]
    exact isSome_getTable.mpr h

/-! ### New columns -/

def BaseType.coreType (base : BaseType) : DataType :=
  match toCoreType base with
  | .ok type => type
  | .error _ => .mixed

def Property.columnType (prop : Property) : ColumnType :=
  if prop.type.base = .object then
    if prop.type.array then .linkList (tableNameForObjectType prop.objectType)
    else .link (tableNameForObjectType prop.objectType)
  else if prop.type.array then
    .table ⟨arrayColumnName, prop.type.base.coreType, prop.type.nullable⟩ []
  else .scalar prop.type.base.coreType prop.type.nullable

/-- The column of a property that can be stored. -/
def Property.column (prop : Property) : Column := ⟨prop.name, prop.columnType, prop.requiresIndex⟩

section Storable

variable {schema : Schema} {prop : Property}

theorem toCoreType_eq (h : prop.Storable schema) (hobject : prop.type.base ≠ .object) :
    toCoreType prop.type.base = .ok prop.type.base.coreType := by
  obtain ⟨hlinking, hany⟩ := h.base
  cases hbase : prop.type.base <;> first | rfl | contradiction

theorem baseType_coreType (h : prop.Storable schema) (hobject : prop.type.base ≠ .object) :
    prop.type.base.coreType.baseType = prop.type.base := by
  obtain ⟨hlinking, hany⟩ := h.base
  cases hbase : prop.type.base <;> first | rfl | contradiction

/-- The core takes the name of the column. -/
def Property.nameFits (prop : Property) : Bool :=
  decide (prop.name.utf8ByteSize ≤ maxColumnNameLength)

theorem insertColumn_column (prop : Property) :
    insertColumn prop.column =
      if prop.nameFits then .ok prop.column else .error .columnNameTooLong := by
  have hname : prop.column.name = prop.name := rfl
  unfold insertColumn
  rw [hname]
  cases hfits : prop.nameFits with
  | true => rw [if_neg (not_lt.mpr (of_decide_eq_true hfits)), if_pos rfl]
  | false =>
    rw [if_pos (not_le.mp (of_decide_eq_false hfits)), if_neg Bool.false_ne_true]

theorem newColumn_eq {group : Group} (h : prop.Storable schema)
    (htables : ∀ object ∈ schema.types,
      tableNameForObjectType object.name ∈ group.tables.map Table.name) :
    newColumn group prop = insertColumn prop.column := by
  unfold newColumn Property.column Property.columnType
  rw [if_neg h.base.1]
  by_cases hobject : prop.type.base = .object
  · obtain ⟨target, htarget, hname⟩ := h.target hobject
    have hsome := isSome_getTable.mpr (htables target htarget)
    rw [hname] at hsome
    rw [if_pos hobject, if_pos hobject, h.link_index hobject]
    simp only [Option.isNone_iff_eq_none, Option.isSome_iff_ne_none.mp hsome, if_false]
    split <;> rfl
  · rw [if_neg hobject, if_neg hobject, toCoreType_eq h hobject]
    dsimp only
    split
    · rename_i harray
      rw [h.array harray]
    · rfl

theorem fromCoreType_columnType (h : prop.Storable schema) :
    fromCoreType prop.columnType = prop.type := by
  unfold Property.columnType
  split_ifs with hobject harray harray
  · exact PropertyType.ext hobject.symm (by simp [fromCoreType, h.link hobject, harray])
      (by simp [fromCoreType, harray])
  · exact PropertyType.ext hobject.symm (by simp [fromCoreType, h.link hobject, harray])
      (by simp [fromCoreType, harray])
  · exact PropertyType.ext (baseType_coreType h hobject) rfl harray.symm
  · exact PropertyType.ext (baseType_coreType h hobject) rfl (by simp [fromCoreType, harray])

theorem objectType_columnType (h : prop.Storable schema) :
    prop.columnType.objectType = prop.objectType := by
  unfold Property.columnType
  split_ifs with hobject
  · exact objectTypeForTableName_tableName _
  · exact objectTypeForTableName_tableName _
  · exact (h.objectType hobject).symm
  · exact (h.objectType hobject).symm

/-- The column makes the property again. -/
theorem signature_column (h : prop.Storable schema) :
    prop.column.signature = (prop.name, prop.type, prop.objectType) := by
  rw [Column.signature, Property.column, fromCoreType_columnType h, objectType_columnType h]

theorem isVisible_column (hname : prop.name ≠ objectIdColumnName) : prop.column.isVisible := by
  have htype : prop.columnType.isPersisted := by
    unfold Property.columnType
    split_ifs <;> rfl
  simp [Column.isVisible, Property.column, hname, htype]

end Storable

section NewColumns

variable {schema : Schema} {object : ObjectSchema} {sync : SyncTables}

theorem addColumn_eq {group : Group} {prop : Property} (h : prop.Storable schema)
    (htables : ∀ object ∈ schema.types,
      tableNameForObjectType object.name ∈ group.tables.map Table.name)
    (hobject : object ∈ schema.types) :
    addColumn group object prop =
      if prop.nameFits then
        .ok (group.updateColumns (tableNameForObjectType object.name) fun columns =>
          columns ++ [prop.column])
      else .error .columnNameTooLong := by
  rw [addColumn, newColumn_eq h htables, insertColumn_column]
  by_cases hfits : prop.nameFits
  · rw [if_pos hfits, if_pos hfits]
    exact updateTableOf_eq (htables object hobject) fun columns => columns ++ [prop.column]
  · rw [if_neg hfits, if_neg hfits]

/-- The columns of the properties, the primary key apart. -/
def initialColumns (props : List Property) : List Column :=
  (props.filter fun prop => !prop.isPrimary).map Property.column

def initialColumnsFit (props : List Property) : Bool :=
  props.all fun prop => prop.isPrimary || prop.nameFits

theorem foldlM_addColumn {group : Group} {props : List Property}
    (h : ∀ prop ∈ props, prop.Storable schema)
    (htables : ∀ object ∈ schema.types,
      tableNameForObjectType object.name ∈ group.tables.map Table.name)
    (hobject : object ∈ schema.types) :
    (props.foldlM (fun group prop =>
        if prop.isPrimary then .ok group else addColumn group object prop) group :
      Except UpdateError Group) =
      if initialColumnsFit props then
        .ok (group.updateColumns (tableNameForObjectType object.name) fun columns =>
          columns ++ initialColumns props)
      else .error .columnNameTooLong := by
  induction props generalizing group with
  | nil =>
    exact congrArg Except.ok (Group.updateColumns_self List.append_nil).symm
  | cons prop props ih =>
    have hprops := fun other hother => h other (List.mem_cons_of_mem _ hother)
    rw [List.foldlM_cons]
    by_cases hprimary : prop.isPrimary
    · have hsame : initialColumns (prop :: props) = initialColumns props := by
        simp [initialColumns, hprimary]
      have hfits : initialColumnsFit (prop :: props) = initialColumnsFit props := by
        simp [initialColumnsFit, hprimary]
      rw [if_pos hprimary, hsame, hfits]
      exact ih hprops htables
    · rw [if_neg hprimary, addColumn_eq (h prop List.mem_cons_self) htables hobject]
      have hfits : initialColumnsFit (prop :: props) =
          (prop.nameFits && initialColumnsFit props) := by
        simp [initialColumnsFit, hprimary]
      rw [hfits]
      cases hname : prop.nameFits with
      | false => rfl
      | true =>
        have hcons : initialColumns (prop :: props) = prop.column :: initialColumns props := by
          simp [initialColumns, hprimary]
        have hrest := @ih (group.updateColumns (tableNameForObjectType object.name) fun columns =>
          columns ++ [prop.column]) hprops (by simpa using htables)
        rw [Group.updateColumns_updateColumns] at hrest
        refine hrest.trans ?_
        rw [hcons]
        simp [Function.comp_def]

end NewColumns

/-! ### The index changes of one table -/

section Reindex

variable {sync : SyncTables} {group : Group} {existing : ObjectSchema}

def setIndexed (prop : Property) (indexed : Bool) (columns : List Column) : List Column :=
  match prop.tableColumn with
  | some index => columns.modify index fun column => { column with indexed := indexed }
  | none => columns

/-- What a change of an index does to the columns of its table. -/
def applyIndex (columns : List Column) : SchemaChange → List Column
  | .addIndex _ prop => setIndexed prop true columns
  | .removeIndex _ prop => setIndexed prop false columns
  | _ => columns

theorem setSearchIndex_eq {prop : Property} (indexed : Bool)
    (htable : tableNameForObjectType existing.name ∈ group.tables.map Table.name)
    (hprop : ∃ index, prop.tableColumn = some index) :
    setSearchIndex group existing prop indexed = .ok
      (group.updateColumns (tableNameForObjectType existing.name) (setIndexed prop indexed)) := by
  obtain ⟨index, hindex⟩ := hprop
  unfold setSearchIndex setIndexed
  rw [hindex]
  exact updateTableOf_eq htable fun columns => columns.modify index fun column =>
    { column with indexed := indexed }

theorem createInitialTable_reindex {change : SchemaChange} {required : Bool} {prop : Property}
    (htable : tableNameForObjectType existing.name ∈ group.tables.map Table.name)
    (hprop : ∃ index, prop.tableColumn = some index)
    (hchange : change ∈ reindex existing required prop) :
    createInitialTable sync group change = .ok
      (group.updateColumns (tableNameForObjectType existing.name) fun columns =>
        applyIndex columns change) := by
  unfold reindex at hchange
  split_ifs at hchange
  · cases hchange
  · rw [List.mem_singleton.mp hchange]
    exact setSearchIndex_eq _ htable hprop
  · rw [List.mem_singleton.mp hchange]
    exact setSearchIndex_eq _ htable hprop

theorem foldlM_reindex (sync : SyncTables) (changes : List SchemaChange)
    (htable : tableNameForObjectType existing.name ∈ group.tables.map Table.name)
    (h : ∀ change ∈ changes, ∃ required prop,
      (∃ index, prop.tableColumn = some index) ∧ change ∈ reindex existing required prop) :
    changes.foldlM (createInitialTable sync) group = .ok
      (group.updateColumns (tableNameForObjectType existing.name) fun columns =>
        changes.foldl applyIndex columns) := by
  induction changes generalizing group with
  | nil =>
    rw [Group.updateColumns_self fun columns => List.foldl_nil]
    rfl
  | cons change changes ih =>
    obtain ⟨required, prop, hprop, hchange⟩ := h change List.mem_cons_self
    rw [List.foldlM_cons, createInitialTable_reindex htable hprop hchange]
    have hrest := @ih (group.updateColumns (tableNameForObjectType existing.name)
      fun columns => applyIndex columns change) (by simpa using htable)
      fun other hother => h other (List.mem_cons_of_mem _ hother)
    rw [Group.updateColumns_updateColumns] at hrest
    exact hrest

/-- A loop that changes each element at its own position is a map. -/
theorem foldl_modify_zipIdx {α : Type} (f : α → α → α) (done rest : List α) :
    (rest.zipIdx done.length).foldl (fun l entry => l.modify entry.2 (f entry.1)) (done ++ rest) =
      done ++ rest.map fun a => f a a := by
  induction rest generalizing done with
  | nil => rfl
  | cons a rest ih =>
    have hstep : (done ++ a :: rest).modify done.length (f a) = done ++ [f a a] ++ rest := by
      rw [List.append_assoc]
      clear ih
      induction done with
      | nil => rfl
      | cons b done ih => exact congrArg (b :: ·) ih
    have hrest := ih (done ++ [f a a])
    rw [List.length_append, List.length_singleton] at hrest
    rw [List.zipIdx_cons, List.foldl_cons, hstep, hrest, List.append_assoc]
    rfl

/-- The column with the index that its property requires. -/
def reindexColumn (requires : String → Bool) (column : Column) : Column :=
  if column.isVisible then { column with indexed := requires column.name } else column

/-- What the change found for a column makes of one. -/
def reindexOf (requires : String → Bool) (found column : Column) : Column :=
  if found.isVisible ∧ found.indexed ≠ requires found.name then
    { column with indexed := requires found.name }
  else column

theorem reindexOf_self (requires : String → Bool) (column : Column) :
    reindexOf requires column column = reindexColumn requires column := by
  unfold reindexOf reindexColumn
  by_cases hvisible : column.isVisible
  · by_cases hindexed : column.indexed = requires column.name
    · rw [if_neg fun h => h.2 hindexed, if_pos hvisible, ← hindexed]
    · rw [if_pos ⟨hvisible, hindexed⟩, if_pos hvisible]
  · rw [if_neg fun h => hvisible h.1, if_neg hvisible]

theorem foldl_applyIndex_column {key : String} {requires : String → Bool} {found : Column}
    (hvisible : found.isVisible) (index : Nat) (columns : List Column) :
    (reindex existing (requires found.name) (markPrimary key (found.property index))).foldl
        applyIndex columns = columns.modify index (reindexOf requires found) := by
  have hindexed : (markPrimary key (found.property index)).isIndexed = found.indexed := by
    unfold markPrimary
    split <;> rfl
  have hcolumn : (markPrimary key (found.property index)).tableColumn = some index := by
    unfold markPrimary
    split <;> rfl
  unfold reindex
  rw [hindexed]
  by_cases hsame : found.indexed = requires found.name
  · have hid : reindexOf requires found = id := funext fun _ => if_neg fun h => h.2 hsame
    rw [if_pos hsame, hid]
    exact (List.modify_id _ _).symm
  · have hset : reindexOf requires found = fun column =>
        { column with indexed := requires found.name } := funext fun _ => if_pos ⟨hvisible, hsame⟩
    rw [if_neg hsame, hset]
    cases requires found.name <;> simp [applyIndex, setIndexed, hcolumn]

/-- All index changes of a class together. -/
theorem foldl_reindex {table : Table} {name : String} (h : table.names.Nodup)
    (requires : String → Bool) :
    ((ObjectSchema.ofTable group name table).persistedProperties.flatMap fun prop =>
        reindex existing (requires prop.name) prop).foldl applyIndex table.columns =
      table.columns.map (reindexColumn requires) := by
  have hstep : ∀ (columns : List Column) (entry : Column × Nat),
      (((propertyForColumnIndex entry.1 entry.2).toList.flatMap fun prop =>
          reindex existing (requires (markPrimary (group.getPrimaryKeyForObject name) prop).name)
            (markPrimary (group.getPrimaryKeyForObject name) prop)).foldl applyIndex columns) =
        columns.modify entry.2 (reindexOf requires entry.1) := by
    rintro columns ⟨column, index⟩
    rw [propertyForColumnIndex_eq]
    by_cases hvisible : column.isVisible
    · simp only [hvisible, if_true, Option.toList_some, List.flatMap_singleton, markPrimary_name]
      exact foldl_applyIndex_column hvisible index columns
    · have hsame : reindexOf requires column = id := funext fun _ => if_neg fun h => hvisible h.1
      rw [if_neg hvisible, hsame]
      exact (List.modify_id _ _).symm
  rw [persisted_ofTable h, List.flatMap_map, Table.properties, List.filterMap_eq_flatMap_toList,
    List.flatMap_assoc, List.foldl_flatMap]
  simp only [hstep]
  have hmap := foldl_modify_zipIdx (reindexOf requires) [] table.columns
  simp only [reindexOf_self] at hmap
  exact hmap

end Reindex

/-! ### New tables -/

section NewTables

variable {sync : SyncTables} {group : Group} {schema : Schema} {object : ObjectSchema}

def primaryKeyRow (object : ObjectSchema) : List (String × String) :=
  object.primaryKeyProperty.toList.map fun prop => (object.name, prop.name)

/-- The table `createTable` makes, before it gets its other columns. -/
def bornTable (sync : SyncTables) (object : ObjectSchema) : Table where
  name := tableNameForObjectType object.name
  columns := sync.objectIdColumns ++ object.primaryKeyProperty.toList.map Property.column

theorem ObjectSchema.Declared.primaryKeyProperty_eq_some (h : object.Declared) {prop : Property}
    (hprop : object.primaryKeyProperty = some prop) :
    prop ∈ object.persistedProperties ∧ prop.isPrimary ∧ prop.name = object.primaryKey := by
  have hfound : ∃ other ∈ object.persistedProperties, other.name = object.primaryKey := by
    rcases h.primaryKey with hempty | hfound
    · -- no property has the empty name
      rcases Option.or_eq_some_iff.mp hprop with hfind | ⟨-, hfind⟩
      · refine absurd ?_
          (h.names_ne prop (List.mem_append_left _ (List.mem_of_find?_eq_some hfind)))
        rw [← hempty]
        simpa using List.find?_some hfind
      · refine absurd ?_
          (h.names_ne prop (List.mem_append_right _ (List.mem_of_find?_eq_some hfind)))
        rw [← hempty]
        simpa using List.find?_some hfind
    · exact hfound
  obtain ⟨other, hother, hname⟩ := hfound
  have hfind := h.propertyForName hother
  rw [hname] at hfind
  obtain rfl : other = prop := Option.some.inj (hfind.symm.trans hprop)
  exact ⟨hother, (h.isPrimary other hother).mpr hname, hname⟩

/-- The property of the primary key. -/
theorem ObjectSchema.Declared.primaryKeyProperty_of_isPrimary (h : object.Declared)
    {prop : Property} (hprop : prop ∈ object.persistedProperties) (hprimary : prop.isPrimary) :
    object.primaryKeyProperty = some prop := by
  rw [ObjectSchema.primaryKeyProperty, ← (h.isPrimary prop hprop).mp hprimary]
  exact h.propertyForName hprop

/-- The names of a class are such as the core takes. -/
structure ObjectSchema.NamesFit (object : ObjectSchema) : Prop where
  table : (tableNameForObjectType object.name).utf8ByteSize ≤ maxTableNameLength
  columns : ∀ prop ∈ object.persistedProperties, prop.name.utf8ByteSize ≤ maxColumnNameLength

/-- What `createTable` throws. -/
def ObjectSchema.tableError (object : ObjectSchema) : Option UpdateError :=
  if maxTableNameLength < (tableNameForObjectType object.name).utf8ByteSize then
    some .tableNameTooLong
  else if object.primaryKeyProperty.all Property.nameFits then none
  else some .columnNameTooLong

theorem ObjectSchema.Declared.namesFit_iff (h : object.Declared) :
    object.NamesFit ↔
      object.tableError = none ∧ initialColumnsFit object.persistedProperties = true := by
  simp only [tableError, initialColumnsFit, List.all_eq_true, Bool.or_eq_true,
    Property.nameFits, decide_eq_true_iff]
  constructor
  · intro hfits
    have hkey : object.primaryKeyProperty.all Property.nameFits := by
      cases hkey : object.primaryKeyProperty with
      | none => rfl
      | some prop =>
        exact decide_eq_true (hfits.columns prop (h.primaryKeyProperty_eq_some hkey).1)
    exact ⟨by rw [if_neg (not_lt.mpr hfits.table), if_pos hkey],
      fun prop hprop => .inr (hfits.columns prop hprop)⟩
  · rintro ⟨herror, hcolumns⟩
    split_ifs at herror with htable hkey
    refine ⟨not_lt.mp htable, fun prop hprop => ?_⟩
    rcases hcolumns prop hprop with hprimary | hfits
    · rw [h.primaryKeyProperty_of_isPrimary hprop hprimary] at hkey
      exact of_decide_eq_true hkey
    · exact hfits

theorem createTable_eq (h : Valid schema) (hobject : object ∈ schema.types) :
    createTable sync group object =
      match object.tableError with
      | some e => .error e
      | none => .ok
          { group with
            tables := group.tables ++ [bornTable sync object]
            pk := group.pk ++ primaryKeyRow object } := by
  unfold createTable bornTable primaryKeyRow ObjectSchema.tableError addTable
  cases hkey : object.primaryKeyProperty with
  | none =>
    dsimp only
    split_ifs
    · rfl
    · simp
    · rename_i hnone
      exact absurd rfl hnone
  | some prop =>
    obtain ⟨hprop, hprimary, -⟩ := (h.declared object hobject).primaryKeyProperty_eq_some hkey
    have hstorable := h.storable object hobject prop hprop
    have hindex : prop.requiresIndex = true := by simp [Property.requiresIndex, hprimary]
    have hscalar : prop.type.base ≠ .object := by
      intro hbase
      rw [hstorable.link_index hbase] at hindex
      cases hindex
    have harray : prop.type.array = false := by
      cases harray : prop.type.array with
      | false => rfl
      | true =>
        rw [hstorable.array harray] at hindex
        cases hindex
    have hcolumn : sync.primaryKeyColumn prop.type.base.coreType prop.name prop.type.nullable =
        prop.column := by
      rw [sync.primaryKeyColumn_eq]
      simp [Property.column, Property.columnType, hscalar, harray, hindex]
    simp only [toCoreType_eq hstorable hscalar, hcolumn, Option.toList_some, List.map_singleton,
      insertColumn_column, Option.all_some]
    split_ifs <;> rfl

/-- The classes of the schema that the file does not have. -/
def newClasses (group : Group) (schema : Schema) : List ObjectSchema :=
  schema.types.filter fun object => ((schemaFromGroup group).classNamed object.name).isNone

/-- The core takes the names of the classes that the file is to get. -/
def NewNamesFit (group : Group) (schema : Schema) : Prop :=
  ∀ object ∈ newClasses group schema, object.NamesFit

theorem mem_newClasses :
    object ∈ newClasses group schema ↔
      object ∈ schema.types ∧ (schemaFromGroup group).classNamed object.name = none := by
  simp [newClasses]

theorem missingTables_eq :
    Schema.missingTables (schemaFromGroup group) schema =
      (newClasses group schema).map SchemaChange.addTable := by
  unfold Schema.missingTables newClasses
  induction schema.types with
  | nil => rfl
  | cons object objects ih =>
    rw [List.flatMap_cons, ih]
    cases hfind : (schemaFromGroup group).classNamed object.name with
    | none => simp [Schema.missingTable, hfind]
    | some existing => simp [Schema.missingTable, hfind]

theorem foldlM_addTable (h : Valid schema) {objects : List ObjectSchema}
    (hobjects : ∀ object ∈ objects, object ∈ schema.types) :
    (objects.map SchemaChange.addTable).foldlM (createInitialTable sync) group =
      match objects.findSome? ObjectSchema.tableError with
      | some e => .error e
      | none => .ok
          { group with
            tables := group.tables ++ objects.map (bornTable sync)
            pk := group.pk ++ objects.flatMap primaryKeyRow } := by
  induction objects generalizing group with
  | nil => simp [pure, Except.pure]
  | cons object objects ih =>
    rw [List.map_cons, List.foldlM_cons, createInitialTable,
      createTable_eq h (hobjects object List.mem_cons_self), List.findSome?_cons]
    cases object.tableError with
    | some e => rfl
    | none =>
      refine (ih fun other hother => hobjects other (List.mem_cons_of_mem _ hother)).trans ?_
      simp

end NewTables

/-! ### The changes of one class -/

/-- The file has no class of the schema in another shape. -/
def Agrees (group : Group) (schema : Schema) : Prop :=
  ∀ object ∈ schema.types, ∀ existing,
    (schemaFromGroup group).classNamed object.name = some existing → existing.shape = object.shape

section TableChanges

variable {sync : SyncTables} {group file : Group} {schema : Schema} {object : ObjectSchema}

/-- What the changes of one class do to the columns of its table. -/
def classColumns (file : Group) (object : ObjectSchema) (columns : List Column) : List Column :=
  match (schemaFromGroup file).classNamed object.name with
  | some existing => (compareColumns existing object).foldl applyIndex columns
  | none => columns ++ initialColumns object.persistedProperties

theorem foldlM_tableChanges (hfile : file.Sound) (h : Valid schema) (hagrees : Agrees file schema)
    (hfits : NewNamesFit file schema) (hobject : object ∈ schema.types)
    (htables : ∀ object ∈ schema.types,
      tableNameForObjectType object.name ∈ group.tables.map Table.name) :
    (Schema.tableChanges (schemaFromGroup file) object).foldlM (createInitialTable sync) group = .ok
      (group.updateColumns (tableNameForObjectType object.name) (classColumns file object)) := by
  unfold Schema.tableChanges classColumns
  cases hfind : (schemaFromGroup file).classNamed object.name with
  | none =>
    have hcolumns := foldlM_addColumn (h.storable object hobject) htables hobject
    have hnew := hfits object (mem_newClasses.mpr ⟨hobject, hfind⟩)
    rw [if_pos ((h.declared object hobject).namesFit_iff.mp hnew).2] at hcolumns
    simp only [Schema.stopChanges, List.foldlM_cons, List.foldlM_nil, createInitialTable,
      addInitialColumns, hcolumns]
    rfl
  | some existing =>
    obtain ⟨hstored, hname, -⟩ := hfile.stored hfind
    obtain ⟨-, table, htable, -, hexisting⟩ := hfile.classNamed_eq_some.mp hfind
    have hchanges := compareColumns_of_shape hstored (h.declared object hobject)
      (hagrees object hobject existing hfind)
    have htableName : tableNameForObjectType existing.name ∈ group.tables.map Table.name := by
      rw [hname]
      exact htables object hobject
    have hfold := foldlM_reindex sync (compareColumns existing object) htableName
      (by
        intro change hchange
        rw [hchanges] at hchange
        obtain ⟨prop, hprop, hchange⟩ := List.mem_flatMap.mp hchange
        rw [hexisting] at hprop
        obtain ⟨index, -, -, -, -, -, hindex⟩ :=
          exists_column (hfile.names_nodup table htable) hprop
        exact ⟨_, prop, ⟨index, hindex⟩, hchange⟩)
    rw [hname] at hfold
    exact hfold

theorem foldlM_flatMap_tableChanges (hfile : file.Sound) (h : Valid schema)
    (hagrees : Agrees file schema) (hfits : NewNamesFit file schema)
    {objects : List ObjectSchema} (hobjects : ∀ object ∈ objects, object ∈ schema.types)
    (htables : ∀ object ∈ schema.types,
      tableNameForObjectType object.name ∈ group.tables.map Table.name) :
    (objects.flatMap (Schema.tableChanges (schemaFromGroup file))).foldlM
        (createInitialTable sync) group = .ok
      (objects.foldl (fun group object =>
        group.updateColumns (tableNameForObjectType object.name) (classColumns file object))
          group) := by
  induction objects generalizing group with
  | nil => rfl
  | cons object objects ih =>
    rw [List.flatMap_cons, List.foldlM_append,
      foldlM_tableChanges hfile h hagrees hfits (hobjects object List.mem_cons_self) htables]
    exact ih (fun other hother => hobjects other (List.mem_cons_of_mem _ hother))
      (by simpa using htables)

/-- Each table gets the changes of its class. -/
theorem foldl_updateColumns {objects : List ObjectSchema}
    (h : (objects.map ObjectSchema.name).Nodup)
    (f : ObjectSchema → List Column → List Column) :
    objects.foldl (fun group object =>
        group.updateColumns (tableNameForObjectType object.name) (f object)) group =
      { group with tables := group.tables.map fun table =>
          match objects.find? (fun object =>
            decide (tableNameForObjectType object.name = table.name)) with
          | some object => { table with columns := f object table.columns }
          | none => table } := by
  induction objects generalizing group with
  | nil => simp
  | cons object objects ih =>
    rw [List.map_cons] at h
    obtain ⟨hnot, hobjects⟩ := List.nodup_cons.mp h
    rw [List.foldl_cons, ih hobjects]
    simp only [Group.updateColumns, Group.updateTable, List.map_map]
    congr 2
    funext table
    by_cases hname : tableNameForObjectType object.name = table.name
    · have hnone : (objects.find? fun other =>
          decide (tableNameForObjectType other.name = table.name)) = none := by
        apply List.find?_eq_none.mpr
        intro other hother heq
        have heq' := tableName_injective ((of_decide_eq_true heq).trans hname.symm)
        exact hnot (List.mem_map.mpr ⟨other, hother, heq'⟩)
      simp [hname, hnone]
    · simp [hname, Ne.symm hname]

end TableChanges

end ObjectStore

end W3Stats

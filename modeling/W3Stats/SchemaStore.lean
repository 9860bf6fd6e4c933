import W3Stats.Schema

/-!
# The schema of a file and its update

What `Realm::update_schema` does when a Realm is opened with the program's schema, as
`RLMRealm` calls it: automatic mode, schema version 0, no migration function.  The
file is its object tables with their columns, the `pk` table and the version in the
`metadata` table; rows do not matter here.
-/

namespace W3Stats

namespace ObjectStore

/-! ### The file -/

inductive DataType where
  | int
  | bool
  | string
  | binary
  | timestamp
  | float
  | double
  | mixed
deriving DecidableEq, Repr

structure SubColumn where
  name : String
  type : DataType
  nullable : Bool
deriving DecidableEq, Repr

/-- A link has the name of its target table, a subtable its columns. -/
inductive ColumnType where
  | scalar (type : DataType) (nullable : Bool)
  | link (target : String)
  | linkList (target : String)
  | table (first : SubColumn) (others : List SubColumn)
deriving DecidableEq, Repr

structure Column where
  name : String
  type : ColumnType
  indexed : Bool := false
deriving DecidableEq, Repr

structure Table where
  name : String
  columns : List Column
deriving DecidableEq, Repr

/-- `pk` has the class and the primary key of each row of the `pk` table; `version` is
    `none` where the source has `NotVersioned`. -/
structure Group where
  tables : List Table
  pk : List (String × String)
  version : Option Nat
deriving DecidableEq, Repr

def Group.empty : Group := ⟨[], [], none⟩

def objectTablePrefix : String := "class_"
def arrayColumnName : String := "!ARRAY_VALUE"
def objectIdColumnName : String := "!OID"

def tableNameForObjectType (objectType : String) : String := objectTablePrefix ++ objectType

def objectTypeForTableName (tableName : String) : String :=
  if objectTablePrefix.toList.isPrefixOf tableName.toList then
    String.ofList (tableName.toList.drop objectTablePrefix.toList.length)
  else ""

/-- `f` at the first element that satisfies `p`. -/
def setFirst {α : Type} (p : α → Bool) (f : α → α) : List α → List α
  | [] => []
  | a :: l => if p a then f a :: l else a :: setFirst p f l

namespace Group

def getTable (group : Group) (name : String) : Option Table :=
  group.tables.find? fun table => decide (table.name = name)

def updateTable (group : Group) (name : String) (f : Table → Table) : Group :=
  { group with
    tables := group.tables.map fun table => if table.name = name then f table else table }

def getPrimaryKeyForObject (group : Group) (objectType : String) : String :=
  match group.pk.find? fun row => decide (row.1 = objectType) with
  | some row => row.2
  | none => ""

/-- A file opened without sync has no object IDs, so the branch that only checks the `pk`
    table is not taken. -/
def setPrimaryKeyForObject (group : Group) (objectType primaryKey : String) : Group :=
  match group.pk.findIdx? fun row => decide (row.1 = objectType) with
  | none =>
    if primaryKey = "" then group
    else { group with pk := group.pk ++ [(objectType, primaryKey)] }
  | some row =>
    if primaryKey = "" then
      match group.pk.getLast? with
      | none => group
      | some last => { group with pk := (group.pk.set row last).dropLast }
    else { group with pk := group.pk.modify row fun entry => (entry.1, primaryKey) }

end Group

/-! ### Reading the schema from the file -/

def DataType.baseType : DataType → BaseType
  | .int => .int
  | .bool => .bool
  | .string => .string
  | .binary => .data
  | .timestamp => .date
  | .float => .float
  | .double => .double
  | .mixed => .any

def fromCoreType : ColumnType → PropertyType
  | .scalar type nullable => ⟨type.baseType, nullable, false⟩
  | .link _ => ⟨.object, true, false⟩
  | .linkList _ => ⟨.object, false, true⟩
  | .table first _ => ⟨first.type.baseType, first.nullable, true⟩

def ColumnType.objectType : ColumnType → String
  | .link target => objectTypeForTableName target
  | .linkList target => objectTypeForTableName target
  | _ => ""

/-- A subtable is an array if it has the one column of an array. -/
def ColumnType.isPersisted : ColumnType → Bool
  | .table first others => others.isEmpty && first.name == arrayColumnName
  | _ => true

def propertyForColumnIndex (column : Column) (index : Nat) : Option Property :=
  if column.name = objectIdColumnName then none
  else if !column.type.isPersisted then none
  else
    some
      { name := column.name
        type := fromCoreType column.type
        objectType := column.type.objectType
        isIndexed := column.indexed
        tableColumn := some index }

def setPrimaryKeyProperty (primaryKey : String) (props : List Property) : List Property :=
  if primaryKey = "" then props
  else
    setFirst (fun prop => decide (prop.name = primaryKey))
      (fun prop => { prop with isPrimary := true }) props

def ObjectSchema.ofTable (group : Group) (name : String) (table : Table) : ObjectSchema where
  name := name
  persistedProperties :=
    setPrimaryKeyProperty (group.getPrimaryKeyForObject name)
      (table.columns.zipIdx.filterMap fun entry => propertyForColumnIndex entry.1 entry.2)
  primaryKey := group.getPrimaryKeyForObject name

def objectSchemaOfTable (group : Group) (table : Table) : Option ObjectSchema :=
  if objectTypeForTableName table.name = "" then none
  else some (ObjectSchema.ofTable group (objectTypeForTableName table.name) table)

def schemaFromGroup (group : Group) : Schema :=
  Schema.ofTypes (group.tables.filterMap (objectSchemaOfTable group))

/-! ### Columns and tables -/

inductive UpdateError where
  | schemaValidation (exceptions : List String)
  | invalidSchemaVersion (oldVersion newVersion : Nat)
  | schemaMismatch (errors : List String)
  | tableNameTooLong
  | columnNameTooLong
  | assertionFailed
deriving DecidableEq, Repr

/-- `max_table_name_length`, in bytes. -/
def maxTableNameLength : Nat := 63

/-- `max_column_name_length`, in bytes. -/
def maxColumnNameLength : Nat := 63

def toCoreType : BaseType → Except UpdateError DataType
  | .int => .ok .int
  | .bool => .ok .bool
  | .float => .ok .float
  | .double => .ok .double
  | .string => .ok .string
  | .date => .ok .timestamp
  | .data => .ok .binary
  | .object => .error .assertionFailed
  | .any => .error .assertionFailed
  | .linkingObjects => .error .assertionFailed

/-- The core throws where a column is to get a name that is too long. -/
def insertColumn (column : Column) : Except UpdateError Column :=
  if maxColumnNameLength < column.name.utf8ByteSize then .error .columnNameTooLong
  else .ok column

/-- The column that `insert_column` makes for a property. -/
def newColumn (group : Group) (prop : Property) : Except UpdateError Column :=
  if prop.type.base = .linkingObjects then .error .assertionFailed
  else if prop.type.base = .object then
    let targetName := tableNameForObjectType prop.objectType
    if (group.getTable targetName).isNone then .error .assertionFailed
    else if prop.type.array then insertColumn ⟨prop.name, .linkList targetName, false⟩
    else insertColumn ⟨prop.name, .link targetName, false⟩
  else
    match toCoreType prop.type.base with
    | .error e => .error e
    | .ok type =>
      if prop.type.array then
        insertColumn ⟨prop.name, .table ⟨arrayColumnName, type, prop.type.nullable⟩ [], false⟩
      else insertColumn ⟨prop.name, .scalar type prop.type.nullable, prop.requiresIndex⟩

/-- `f` at the table of the class, which has to be there. -/
def updateTableOf (group : Group) (object : ObjectSchema) (f : Table → Table) :
    Except UpdateError Group :=
  let name := tableNameForObjectType object.name
  if (group.getTable name).isNone then .error .assertionFailed else .ok (group.updateTable name f)

def addColumn (group : Group) (object : ObjectSchema) (prop : Property) :
    Except UpdateError Group :=
  match newColumn group prop with
  | .error e => .error e
  | .ok column =>
    updateTableOf group object fun table => { table with columns := table.columns ++ [column] }

/-- `insert_column` at the column of `oldProperty`, then `remove_column` of the one after it. -/
def replaceColumn (group : Group) (object : ObjectSchema) (oldProperty newProperty : Property) :
    Except UpdateError Group :=
  match newColumn group newProperty, oldProperty.tableColumn with
  | .ok column, some index =>
    updateTableOf group object fun table =>
      { table with columns := (table.columns.insertIdx index column).eraseIdx (index + 1) }
  | .error e, _ => .error e
  | _, none => .error .assertionFailed

def setSearchIndex (group : Group) (object : ObjectSchema) (prop : Property) (indexed : Bool) :
    Except UpdateError Group :=
  match prop.tableColumn with
  | some index =>
    updateTableOf group object fun table =>
      { table with columns := table.columns.modify index fun column =>
          { column with indexed := indexed } }
  | none => .error .assertionFailed

def removeColumn (group : Group) (object : ObjectSchema) (prop : Property) :
    Except UpdateError Group :=
  match prop.tableColumn with
  | some index =>
    updateTableOf group object fun table => { table with columns := table.columns.eraseIdx index }
  | none => .error .assertionFailed

/-- The tables of `sync::create_table` and `sync::create_table_with_primary_key`: they are
    born with what maintains object IDs, and the latter with its primary key column, which
    has a search index as the branch without sync gives it. -/
structure SyncTables where
  objectIdColumns : List Column
  objectIdColumns_name : ∀ column ∈ objectIdColumns, column.name = objectIdColumnName
  primaryKeyColumn : DataType → String → Bool → Column
  primaryKeyColumn_eq : ∀ type name nullable,
    primaryKeyColumn type name nullable = ⟨name, .scalar type nullable, true⟩

section Apply

variable (sync : SyncTables)

/-- A table that the group is to get; the core throws where its name is too long. -/
def addTable (group : Group) (table : Table) : Except UpdateError Group :=
  if maxTableNameLength < table.name.utf8ByteSize then .error .tableNameTooLong
  else .ok { group with tables := group.tables ++ [table] }

/-- The `pk` table gets the primary key from `sync::create_table_with_primary_key`. -/
def createTable (group : Group) (object : ObjectSchema) : Except UpdateError Group :=
  let name := tableNameForObjectType object.name
  match object.primaryKeyProperty with
  | none => addTable group ⟨name, sync.objectIdColumns⟩
  | some prop =>
    match toCoreType prop.type.base with
    | .error e => .error e
    | .ok type => do
      let column := sync.primaryKeyColumn type prop.name prop.type.nullable
      let group ← addTable group ⟨name, sync.objectIdColumns ++ [column]⟩
      let _ ← insertColumn column
      return { group with pk := group.pk ++ [(object.name, prop.name)] }

/-- `createTable` has made the primary key column. -/
def addInitialColumns (group : Group) (object : ObjectSchema) : Except UpdateError Group :=
  object.persistedProperties.foldlM (fun group prop =>
    if prop.isPrimary then .ok group else addColumn group object prop) group

/-! ### Applying changes -/

/-- `SchemaDifferenceExplainer`. -/
def SchemaChange.explain : SchemaChange → List String
  | .addTable object => [s!"Class '{object.name}' has been added."]
  | .addInitialProperties _ => []
  | .addProperty object prop => [s!"Property '{object.name}.{prop.name}' has been added."]
  | .removeProperty object prop => [s!"Property '{object.name}.{prop.name}' has been removed."]
  | .changePropertyType object oldProperty newProperty =>
    [s!"Property '{object.name}.{newProperty.name}' has been changed from " ++
      s!"'{oldProperty.typeString}' to '{newProperty.typeString}'."]
  | .makePropertyNullable object prop =>
    [s!"Property '{object.name}.{prop.name}' has been made optional."]
  | .makePropertyRequired object prop =>
    [s!"Property '{object.name}.{prop.name}' has been made required."]
  | .changePrimaryKey object (some prop) =>
    if object.primaryKey ≠ "" then
      [s!"Primary Key for class '{object.name}' has changed from '{object.primaryKey}' to " ++
        s!"'{prop.name}'."]
    else [s!"Primary Key for class '{object.name}' has been added."]
  | .changePrimaryKey object none => [s!"Primary Key for class '{object.name}' has been removed."]
  | .addIndex object prop => [s!"Property '{object.name}.{prop.name}' has been made indexed."]
  | .removeIndex object prop => [s!"Property '{object.name}.{prop.name}' has been made unindexed."]

/-- `Visitor` of `needs_migration`. -/
def SchemaChange.needsMigration : SchemaChange → Bool
  | .addIndex _ _ => false
  | .addInitialProperties _ => false
  | .addProperty _ _ => true
  | .addTable _ => false
  | .changePrimaryKey _ _ => true
  | .changePropertyType _ _ _ => true
  | .makePropertyNullable _ _ => true
  | .makePropertyRequired _ _ => true
  | .removeIndex _ _ => false
  | .removeProperty _ _ => true

/-- `Applier` of `apply_non_migration_changes`: the group and the errors so far. -/
def applyNonMigrationChange (state : Group × List String) :
    SchemaChange → Except UpdateError (Group × List String)
  | .addTable object => (createTable sync state.1 object).map (·, state.2)
  | .addInitialProperties object => (addInitialColumns state.1 object).map (·, state.2)
  | .addIndex object prop => (setSearchIndex state.1 object prop true).map (·, state.2)
  | .removeIndex object prop => (setSearchIndex state.1 object prop false).map (·, state.2)
  | change => .ok (state.1, state.2 ++ change.explain)

def applyNonMigrationChanges (group : Group) (changes : List SchemaChange) :
    Except UpdateError Group :=
  match changes.foldlM (applyNonMigrationChange sync) (group, []) with
  | .error e => .error e
  | .ok (group, errors) => if errors = [] then .ok group else .error (.schemaMismatch errors)

/-- `Applier` of `create_initial_tables`, which makes whatever change there is. -/
def createInitialTable (group : Group) : SchemaChange → Except UpdateError Group
  | .addTable object => createTable sync group object
  | .addInitialProperties object => addInitialColumns group object
  | .addProperty object prop => addColumn group object prop
  | .removeProperty object prop => removeColumn group object prop
  | .changePropertyType object oldProperty newProperty =>
    replaceColumn group object oldProperty newProperty
  | .makePropertyNullable object prop =>
    replaceColumn group object prop { prop with type := { prop.type with nullable := true } }
  | .makePropertyRequired object prop =>
    replaceColumn group object prop { prop with type := { prop.type with nullable := false } }
  | .changePrimaryKey object prop =>
    .ok (group.setPrimaryKeyForObject object.name ((prop.map Property.name).getD ""))
  | .addIndex object prop => setSearchIndex group object prop true
  | .removeIndex object prop => setSearchIndex group object prop false

def createInitialTables (group : Group) (changes : List SchemaChange) : Except UpdateError Group :=
  changes.foldlM (createInitialTable sync) group

end Apply

/-! ### `Realm::update_schema` -/

/-- `schemaVersion` of the configuration, which the program leaves at its default. -/
def schemaVersion : Nat := 0

/-- A change of the classes that keeps their names. -/
def Schema.mapTypes (schema : Schema) (f : ObjectSchema → ObjectSchema)
    (hf : ∀ object, (f object).name = object.name) : Schema where
  types := schema.types.map f
  sorted := List.pairwise_map.mpr (schema.sorted.imp fun h => by rwa [hf, hf])

def ObjectSchema.setColumns (group : Group) (object : ObjectSchema) : ObjectSchema :=
  match group.getTable (tableNameForObjectType object.name) with
  | none => object
  | some table =>
    { object with
      persistedProperties := object.persistedProperties.map fun prop =>
        let index := table.columns.findIdx? fun column => decide (column.name = prop.name)
        { prop with tableColumn := index } }

theorem ObjectSchema.setColumns_name (group : Group) (object : ObjectSchema) :
    (object.setColumns group).name = object.name := by
  unfold setColumns
  split <;> rfl

def setSchemaColumns (group : Group) (schema : Schema) : Schema :=
  schema.mapTypes (ObjectSchema.setColumns group) (ObjectSchema.setColumns_name group)

/-- The table column of the property of that name, which may be a computed one. -/
def ObjectSchema.setTableColumn (object : ObjectSchema) (current : Property) : ObjectSchema :=
  let named := fun prop : Property => decide (prop.name = current.name)
  let set := fun prop : Property => { prop with tableColumn := current.tableColumn }
  if object.persistedProperties.any named then
    { object with persistedProperties := setFirst named set object.persistedProperties }
  else { object with computedProperties := setFirst named set object.computedProperties }

theorem ObjectSchema.setTableColumn_name (object : ObjectSchema) (current : Property) :
    (object.setTableColumn current).name = object.name := by
  unfold setTableColumn
  dsimp only
  split <;> rfl

/-- The class with the table columns of a class of its name, if there is one. -/
def ObjectSchema.copyColumns (object : ObjectSchema) : Option ObjectSchema → ObjectSchema
  | none => object
  | some other => other.persistedProperties.foldl ObjectSchema.setTableColumn object

theorem ObjectSchema.copyColumns_name (object : ObjectSchema) (other : Option ObjectSchema) :
    (object.copyColumns other).name = object.name := by
  cases other with
  | none => rfl
  | some other =>
    apply List.foldlRecOn other.persistedProperties setTableColumn (b := object)
      (motive := fun updated => updated.name = object.name) rfl
    intro updated h prop _
    rw [setTableColumn_name, h]

def Schema.copyTableColumnsFrom (schema other : Schema) : Schema where
  types := (zipMatching schema other).filterMap fun stop =>
    stop.1.map fun existing => existing.copyColumns stop.2
  sorted := by
    have hnames : ((zipMatching schema other).filterMap fun stop =>
        stop.1.map fun existing => existing.copyColumns stop.2).map ObjectSchema.name =
          schema.types.map ObjectSchema.name := by
      have htypes : (zipMatching schema other).filterMap Prod.fst = schema.types :=
        SortedZip.filterMap_fst_zipMatching _ _
      conv_rhs => rw [← htypes]
      rw [List.map_filterMap, List.map_filterMap]
      congr 1
      funext stop
      rw [Option.map_map]
      congr 1
      funext existing
      exact existing.copyColumns_name stop.2
    have hsorted := List.pairwise_map.mpr schema.sorted
    rw [← hnames] at hsorted
    exact List.pairwise_map.mp hsorted

/-- `apply_schema_changes` in automatic mode, for a file of no version or of ours. -/
def applySchemaChanges (sync : SyncTables) (group : Group) (changes : List SchemaChange) :
    Except UpdateError Group :=
  match group.version with
  | none =>
    (createInitialTables sync group changes).map fun group =>
      { group with version := some schemaVersion }
  | some _ => applyNonMigrationChanges sync group changes

/-- The file after the commit, and the schema the Realm goes on with. -/
def updateSchema (sync : SyncTables) (removals : MoveRemovals) (group : Group) (schema : Schema) :
    Except UpdateError (Group × Schema) :=
  if schema.validate ≠ [] then .error (.schemaValidation schema.validate)
  else
    let actualSchema := schemaFromGroup group
    let requiredChanges := actualSchema.compare removals schema
    if group.version = some schemaVersion ∧ requiredChanges = [] then
      .ok (group, schema.copyTableColumnsFrom actualSchema)
    else
      match group.version with
      | some version =>
        if schemaVersion < version then .error (.invalidSchemaVersion version schemaVersion)
        else
          (applySchemaChanges sync group requiredChanges).map fun group =>
            (group, setSchemaColumns group schema)
      | none =>
        (applySchemaChanges sync group requiredChanges).map fun group =>
          (group, setSchemaColumns group schema)

end ObjectStore

end W3Stats

import W3Stats.SchemaHistory
import W3Stats.TableColumns

/-!
# The rows of the program in its file

An open tells each property its column, and rows are written and read there.  Versions
of the program that leave the shapes of its classes as they are can open the file
between: they may declare the properties in another order and add classes, and the columns
stay where they are.
-/

namespace W3Stats

namespace ObjectStore

open StepMachine

variable {sync : SyncTables} {removals : MoveRemovals} {group file : Group} {result : Schema}

/-! ### Columns of the program -/

/-- Columns of other types belong to no property of the program. -/
def ColumnType.emptyCell : ColumnType → ObjectCreate.Cell
  | .scalar .int false => .int 0
  | .scalar .string false => .string ""
  | _ => .null

/-- The empty values of the columns that the table of a class has. -/
def Group.newRow (file : Group) (className : ClassName) : List ObjectCreate.Cell :=
  match file.getTable (tableNameForObjectType (storedClass className).name) with
  | none => []
  | some table => table.columns.map fun column => column.type.emptyCell

/-- The columns as the schema knows them that the Realm goes on with after the open. -/
def columnsOf (file : Group) (result : Schema) : ObjectCreate.Columns ClassName where
  column className col :=
    match (result.find (storedClass className).name).bind (·.persistedProperties[col]?) with
    | some prop => prop.tableColumn.getD 0
    | none => 0
  newRow className _ := file.newRow className

/-- The columns by the names of the properties. -/
def Group.columns (file : Group) : ObjectCreate.Columns ClassName where
  column className col :=
    match file.getTable (tableNameForObjectType (storedClass className).name),
        (storedClass className).persistedProperties[col]? with
    | some table, some prop =>
      (table.columns.findIdx? fun column => decide (column.name = prop.name)).getD 0
    | _, _ => 0
  newRow className _ := file.newRow className

/-- The table of a class with a column for each of its properties. -/
structure Table.Stores (table : Table) (file : Group) (className : ClassName) : Prop where
  getTable : file.getTable (tableNameForObjectType (storedClass className).name) = some table
  names_nodup : table.names.Nodup
  column : ∀ prop ∈ (storedClass className).persistedProperties,
    ∃ (index : Nat) (column : Column), table.columns[index]? = some column ∧
      column.signature = (prop.name, prop.type, prop.objectType)

def Group.Stores (file : Group) : Prop := ∀ className, ∃ table : Table, table.Stores file className

theorem names_dataModel (className : ClassName) :
    ((dataModel className).persistedProperties.map ObjectCreate.Property.name).Nodup := by
  cases className <;> decide

/-- A column of the type of a property is empty with the value the property is. -/
theorem emptyCell_of_type {prop : ObjectCreate.Property ClassName} {columnType : ColumnType}
    (h : fromCoreType columnType = (storedProperty prop).type) :
    columnType.emptyCell = prop.emptyCell := by
  obtain ⟨name, type, isPrimary, isNullable⟩ := prop
  cases columnType with
  | scalar coreType nullable =>
    cases type <;> cases coreType <;> cases nullable <;> cases isNullable <;>
      simp_all [fromCoreType, storedProperty, DataType.baseType, ColumnType.emptyCell,
        ObjectCreate.Property.emptyCell]
  | link target =>
    cases type <;> simp_all [fromCoreType, storedProperty, ColumnType.emptyCell,
        ObjectCreate.Property.emptyCell]
  | linkList target =>
    cases type <;> simp_all [fromCoreType, storedProperty]
  | table first others =>
    cases type <;> simp_all [fromCoreType, storedProperty]

/-- The column of a property is found by its name. -/
theorem Table.Stores.getElem?_column {table : Table} {className : ClassName}
    (h : table.Stores file className) {col : Nat} {prop : ObjectCreate.Property ClassName}
    (hprop : (dataModel className).persistedProperties[col]? = some prop) :
    ∃ column : Column, table.columns[file.columns.column className col]? = some column ∧
      column.name = prop.name ∧ column.type.emptyCell = prop.emptyCell := by
  have hstored : (storedClass className).persistedProperties[col]? =
      some (storedProperty prop) := by
    rw [storedClass, List.getElem?_map, hprop, Option.map_some]
  obtain ⟨index, column, hcolumn, hsignature⟩ := h.column _ (List.mem_of_getElem? hstored)
  have hname : column.name = prop.name := congrArg Prod.fst hsignature
  have htype : fromCoreType column.type = (storedProperty prop).type :=
    congrArg (fun signature => signature.2.1) hsignature
  have hvisible : column.name ≠ objectIdColumnName := by
    rw [hname]
    exact (declared_storedClass className).ne_objectId _ (List.mem_of_getElem? hstored)
  have hindex := findIdx?_name h.names_nodup hcolumn hvisible
  refine ⟨column, ?_, hname, emptyCell_of_type htype⟩
  simp only [Group.columns, h.getTable, hstored, storedProperty]
  rw [← hname, hindex]
  exact hcolumn

theorem Group.Stores.serves (h : file.Stores) : file.columns.Serves W3Stats.dataModel := by
  constructor
  · intro className col col' hcol hcol' heq
    obtain ⟨table, htable⟩ := h className
    obtain ⟨column, hcolumn, hname, -⟩ :=
      htable.getElem?_column (List.getElem?_eq_getElem hcol)
    obtain ⟨column', hcolumn', hname', -⟩ :=
      htable.getElem?_column (List.getElem?_eq_getElem hcol')
    rw [heq, hcolumn'] at hcolumn
    cases hcolumn
    apply (List.getElem?_inj (by simpa using hcol) (names_dataModel className)).mp
    rw [List.getElem?_map, List.getElem?_map, List.getElem?_eq_getElem hcol,
      List.getElem?_eq_getElem hcol', Option.map_some, Option.map_some, ← hname, hname']
  · intro className row col prop hprop
    obtain ⟨table, htable⟩ := h className
    obtain ⟨column, hcolumn, -, hempty⟩ := htable.getElem?_column hprop
    have hrow : file.columns.newRow className row =
        table.columns.map fun column => column.type.emptyCell := by
      simp only [Group.columns, Group.newRow, htable.getTable]
    rw [hrow, List.getElem?_map, hcolumn, Option.map_some, hempty]

/-! ### The columns over launches -/

/-- A launch that opens the file leaves what `update_schema` returned. -/
theorem opened_of_updateSchema (hgroup : group.Current) {schema : DeclaredSchema}
    (h : updateSchema sync removals group schema.toSchema = .ok (file, result)) :
    Opened group file schema.toSchema result := by
  by_cases hvalidate : schema.validate = []
  · have hvalid := schema.valid hvalidate
    cases herror : nameError group schema.toSchema with
    | some e =>
      rw [updateSchema_of_nameError sync removals hgroup.sound hgroup.version hvalidate hvalid
        herror] at h
      cases h
    | none =>
      have hfits := (nameError_eq_none hvalid).mp herror
      by_cases hagrees : Agrees group schema.toSchema
      · obtain ⟨result', hresult, hopened⟩ := updateSchema_of_agrees sync removals
          hgroup.sound hgroup.version hvalidate hvalid hagrees hfits
        rw [h] at hresult
        cases hresult
        exact hopened
      · obtain ⟨errors, hrefused, -⟩ := updateSchema_of_not_agrees sync removals
          hgroup.sound hgroup.version hvalidate hvalid hagrees hfits
        rw [h] at hrefused
        cases hrefused
  · unfold updateSchema at h
    rw [if_pos hvalidate] at h
    cases h

theorem ascii_storedClass (className : ClassName) : IsAscii (storedClass className).name := by
  cases className <;> decide

theorem ascii_programSchema : ∀ object ∈ programSchema.types, IsAscii object.name := by
  apply forall_ofTypes
  simp [ascii_storedClass]

/-- The class of the schema that the Realm goes on with, and its table. -/
theorem Opened.exists_class (h : Opened group file programSchema.toSchema result)
    (className : ClassName) :
    ∃ (object : ObjectSchema) (table : Table),
      result.find (storedClass className).name = some object ∧
      object.forgetColumns = (storedClass className).forgetColumns ∧
      file.getTable (tableNameForObjectType (storedClass className).name) = some table ∧
      ∀ prop ∈ object.persistedProperties, prop.PointsInto table := by
  have hvalid := programSchema.valid validate_programSchema
  have hclass : storedClass className ∈ programSchema.types := by
    apply (List.mem_insertionSort _).mpr
    cases className <;> simp
  have hnames : result.types.map ObjectSchema.name = programSchema.types.map ObjectSchema.name := by
    have hname : ObjectSchema.name ∘ ObjectSchema.forgetColumns = ObjectSchema.name := rfl
    rw [← hname, ← List.map_map, h.classes, List.map_map]
  have hmem : (storedClass className).forgetColumns ∈
      result.types.map ObjectSchema.forgetColumns := by
    rw [h.classes]
    exact List.mem_map_of_mem hclass
  obtain ⟨object, hobject, hforget⟩ := List.mem_map.mp hmem
  have hname : object.name = (storedClass className).name := by
    have hsame := congrArg ObjectSchema.name hforget
    exact hsame
  obtain ⟨table, htable, htableName, hpoints⟩ := h.columns object hobject
  refine ⟨object, table, ?_, hforget, ?_, hpoints⟩
  · have hnodup : (result.types.map ObjectSchema.name).Nodup := by
      rw [hnames]
      exact hvalid.ascending.nodup
    -- no name of the program is missed
    have hascii : ∀ other ∈ result.types, IsAscii other.name := by
      intro other hother
      have hother' := List.mem_map_of_mem (f := ObjectSchema.name) hother
      rw [hnames] at hother'
      obtain ⟨declared, hdeclared, hsame⟩ := List.mem_map.mp hother'
      rw [← hsame]
      exact ascii_programSchema declared hdeclared
    rw [Schema.find_eq_classNamed (hname ▸ hascii object hobject) hascii]
    exact (KeyedTable.find?_key_eq_some hnodup).mpr ⟨hobject, hname⟩
  · exact h.sound.getTable.mpr ⟨htable, by rw [htableName, hname]⟩

theorem Opened.stores (h : Opened group file programSchema.toSchema result) : file.Stores := by
  intro className
  obtain ⟨object, table, -, hforget, htable, hpoints⟩ := h.exists_class className
  refine ⟨table, htable, h.sound.names_nodup table (h.sound.getTable.mp htable).1, ?_⟩
  intro prop hprop
  have hprops := congrArg ObjectSchema.persistedProperties hforget
  have hmem : { prop with tableColumn := none } ∈ object.forgetColumns.persistedProperties := by
    rw [hprops]
    exact List.mem_map_of_mem hprop
  obtain ⟨prop', hprop', hsame⟩ := List.mem_map.mp hmem
  obtain ⟨index, column, -, hcolumn, hsignature, -⟩ := hpoints prop' hprop'
  have hfields := congrArg (fun prop : Property => (prop.name, prop.type, prop.objectType)) hsame
  exact ⟨index, column, hcolumn, hsignature.trans hfields⟩

/-- The columns that an open finds are those of the names. -/
theorem Opened.columnsOf_eq (h : Opened group file programSchema.toSchema result) :
    columnsOf file result = file.columns := by
  unfold columnsOf Group.columns
  congr 1
  funext className col
  obtain ⟨object, table, hfind, hforget, htable, hpoints⟩ := h.exists_class className
  have hnodup := h.sound.names_nodup table (h.sound.getTable.mp htable).1
  have hprops := congrArg (fun object : ObjectSchema => object.persistedProperties[col]?) hforget
  simp only [ObjectSchema.forgetColumns, List.getElem?_map] at hprops
  rw [hfind, htable, Option.bind_some]
  cases hstored : (storedClass className).persistedProperties[col]? with
  | none =>
    rw [hstored, Option.map_none, Option.map_eq_none_iff] at hprops
    rw [hprops]
  | some prop =>
    rw [hstored] at hprops
    obtain ⟨prop', hprop', hsame⟩ := Option.map_eq_some_iff.mp hprops
    have hname : prop'.name = prop.name := by
      have hnames := congrArg Property.name hsame
      exact hnames
    obtain ⟨index, column, hindex, hcolumn, hsignature, -⟩ :=
      hpoints prop' (List.mem_of_getElem? hprop')
    have hcolumnName : column.name = prop.name := (congrArg Prod.fst hsignature).trans hname
    have hvisible : column.name ≠ objectIdColumnName := by
      rw [hcolumnName]
      exact (declared_storedClass className).ne_objectId prop (List.mem_of_getElem? hstored)
    have hfound := findIdx?_name hnodup hcolumn hvisible
    rw [hcolumnName] at hfound
    rw [hprop']
    dsimp only
    rw [hindex, hfound]

/-- A table with the columns of another one has them where that one has them. -/
theorem Table.Stores.of_columns {table later : Table} {className : ClassName}
    (h : table.Stores group className)
    (hlater : file.getTable (tableNameForObjectType (storedClass className).name) = some later)
    (hnodup : later.names.Nodup)
    (hcolumns : later.columns.map (fun column => (column.name, column.type)) =
      table.columns.map fun column => (column.name, column.type)) :
    later.Stores file className := by
  refine ⟨hlater, hnodup, ?_⟩
  intro prop hprop
  obtain ⟨index, column, hcolumn, hsignature⟩ := h.column prop hprop
  have hat := congrArg (·[index]?) hcolumns
  simp only [List.getElem?_map, hcolumn, Option.map_some] at hat
  obtain ⟨column', hcolumn', hsame⟩ := Option.map_eq_some_iff.mp hat
  refine ⟨index, column', hcolumn', ?_⟩
  rw [← hsignature]
  exact congrArg (fun pair => (pair.1, fromCoreType pair.2, pair.2.objectType)) hsame

theorem columns_eq_of_columns {table later : Table} {className : ClassName}
    (htable : group.getTable (tableNameForObjectType (storedClass className).name) = some table)
    (hlater : file.getTable (tableNameForObjectType (storedClass className).name) = some later)
    (hcolumns : later.columns.map (fun column => (column.name, column.type)) =
      table.columns.map fun column => (column.name, column.type)) :
    file.columns.column className = group.columns.column className ∧
      file.newRow className = group.newRow className := by
  constructor
  · funext col
    simp only [Group.columns, htable, hlater]
    cases (storedClass className).persistedProperties[col]? with
    | none => rfl
    | some prop =>
      have hnames := congrArg (fun pairs => pairs.findIdx? fun pair => decide (pair.1 = prop.name))
        hcolumns
      simp only [List.findIdx?_map] at hnames
      exact congrArg (·.getD 0) hnames
  · simp only [Group.newRow, htable, hlater]
    have hcells := congrArg (List.map fun pair => pair.2.emptyCell) hcolumns
    rw [List.map_map, List.map_map] at hcells
    exact hcells

/-- An open leaves the columns of the program where they are. -/
theorem Opened.columns_kept {schema : Schema} (h : Opened group file schema result)
    (hgroup : group.Sound) (hstores : group.Stores) :
    file.Stores ∧ file.columns = group.columns := by
  have hlater : ∀ (className : ClassName) (table : Table), table.Stores group className →
      ∃ later : Table,
        file.getTable (tableNameForObjectType (storedClass className).name) = some later ∧
        later.columns.map (fun column => (column.name, column.type)) =
          table.columns.map fun column => (column.name, column.type) := by
    intro className table htable
    obtain ⟨hmem, hname⟩ := hgroup.getTable.mp htable.getTable
    obtain ⟨later, hlater, hlaterName, hcolumns⟩ := h.kept table hmem
    exact ⟨later, h.sound.getTable.mpr ⟨hlater, hlaterName.trans hname⟩, hcolumns⟩
  constructor
  · intro className
    obtain ⟨table, htable⟩ := hstores className
    obtain ⟨later, hget, hcolumns⟩ := hlater className table htable
    have hnodup := h.sound.names_nodup later (h.sound.getTable.mp hget).1
    exact ⟨later, htable.of_columns hget hnodup hcolumns⟩
  · have hsame : ∀ className, file.columns.column className = group.columns.column className ∧
        file.newRow className = group.newRow className := by
      intro className
      obtain ⟨table, htable⟩ := hstores className
      obtain ⟨later, hget, hcolumns⟩ := hlater className table htable
      exact columns_eq_of_columns htable.getTable hget hcolumns
    have hcolumn : file.columns.column = group.columns.column :=
      funext fun className => (hsame className).1
    have hnewRow : file.columns.newRow = group.columns.newRow :=
      funext fun className => funext fun _ => (hsame className).2
    exact congrArg₂ ObjectCreate.Columns.mk hcolumn hnewRow

/-! ### Writes -/

/-- The rows of the three classes by their table columns. -/
abbrev Rows := ClassName → List (List ObjectCreate.Cell)

/-- A write to the tables of the program. -/
inductive RowWrite where
  | add (object : PlayerObject) (update : Bool)
  | delete (row : Nat)

def writeRows (columns : ObjectCreate.Columns ClassName) (rows : Rows) :
    RowWrite → Except ObjectCreate.CreateError Rows
  | .add object update =>
    (columns.addObjectToRealm W3Stats.dataModel object.graph update PlayerObject.root
      ⟨rows, fun _ => none⟩).map fun result => result.1.tables
  | .delete row =>
    .ok (Function.update rows .playerObject (KeyedTable.moveLastOver (rows .playerObject) row))

/-- The same writes to the tables of the app. -/
def writeGroup (tables : W3Stats.Group) :
    RowWrite → Except ObjectCreate.CreateError W3Stats.Group
  | .add object update =>
    match tables.createPlayer object update with
    | .ok tables => .ok tables
    | .error _ => .error (.existingPrimaryKey "PlayerObject" (.string object.name))
  | .delete row =>
    .ok { tables with playerRows := KeyedTable.moveLastOver tables.playerRows row }

/-- Read through the columns, the rows are those of the app's tables. -/
structure ReadAs (columns : ObjectCreate.Columns ClassName) (rows : Rows)
    (tables : W3Stats.Group) : Prop where
  fits : columns.Fits W3Stats.dataModel rows
  readTables_eq : columns.readTables W3Stats.dataModel rows = tables.encode

theorem readAs_empty (columns : ObjectCreate.Columns ClassName) :
    ReadAs columns (fun _ => []) W3Stats.Group.empty := by
  constructor
  · intro className cells hcells
    cases hcells
  · funext className
    cases className <;> rfl

section Writes

variable {columns : ObjectCreate.Columns ClassName} {rows : Rows} {tables : W3Stats.Group}

theorem writeRows_add_agree (hserves : columns.Serves W3Stats.dataModel)
    (h : ReadAs columns rows tables) (object : PlayerObject) (update : Bool) :
    Agree (ReadAs columns) (writeRows columns rows (.add object update))
      (writeGroup tables (.add object update)) := by
  have hread : columns.read W3Stats.dataModel (n := 6) ⟨rows, fun _ => none⟩ =
      ⟨tables.encode, fun _ => none⟩ := by
    rw [ObjectCreate.Columns.read, h.readTables_eq]
  have hadd := ObjectCreate.add_agree hserves object.graph rows update 6 0
    ⟨rows, fun _ => none⟩ ⟨tables.encode, fun _ => none⟩
    ⟨h.fits, hread, ObjectCreate.Columns.Keeps.refl columns _ rows⟩
  simp only [writeRows, writeGroup, ObjectCreate.Columns.addObjectToRealm, PlayerObject.root]
  cases hcreate : tables.createPlayer object update with
  | ok tables' =>
    obtain ⟨managed, row, hlogical⟩ := addObjectToRealm_of_createPlayer hcreate
    rw [ObjectCreate.addObjectToRealm] at hlogical
    rw [hlogical] at hadd
    obtain ⟨after, hafter, hreads, -⟩ := hadd.exists_ok
    rw [hafter]
    exact ⟨hreads.fits, congrArg ObjectCreate.Adding.tables hreads.read_eq⟩
  | error e =>
    obtain ⟨-, hlogical⟩ := addObjectToRealm_of_createPlayer_error hcreate
    rw [ObjectCreate.addObjectToRealm] at hlogical
    rw [hlogical] at hadd
    rw [hadd.eq_error]
    rfl

/-- The last row is moved over with all its columns. -/
theorem writeRows_delete_agree (h : ReadAs columns rows tables) (row : Nat) :
    Agree (ReadAs columns) (writeRows columns rows (.delete row))
      (writeGroup tables (.delete row)) := by
  constructor
  · intro className cells hcells col hcol
    by_cases hclass : className = .playerObject
    · subst hclass
      rw [Function.update_self] at hcells
      exact h.fits _ cells (KeyedTable.mem_of_mem_moveLastOver hcells) col hcol
    · rw [Function.update_of_ne hclass] at hcells
      exact h.fits className cells hcells col hcol
  · rw [← W3Stats.Group.update_encode_player, ← h.readTables_eq]
    funext className
    by_cases hclass : className = .playerObject
    · subst hclass
      have hrows := congrFun h.readTables_eq .playerObject
      simp only [ObjectCreate.Columns.readTables, W3Stats.Group.encode] at hrows
      simp only [ObjectCreate.Columns.readTables, Function.update_self]
      rw [KeyedTable.map_moveLastOver, KeyedTable.map_moveLastOver, hrows]
    · simp [ObjectCreate.Columns.readTables, Function.update_of_ne hclass]

theorem writeRows_agree (hserves : columns.Serves W3Stats.dataModel) (rows : Rows)
    (tables : W3Stats.Group) (write : RowWrite) (h : ReadAs columns rows tables) :
    Agree (ReadAs columns) (writeRows columns rows write) (writeGroup tables write) := by
  cases write with
  | add object update => exact writeRows_add_agree hserves h object update
  | delete row => exact writeRows_delete_agree h row

end Writes

/-! ### Sessions -/

/-- The file with the rows of the program in it. -/
structure StoredFile where
  group : Group
  rows : Rows

/-- The program runs and writes, or another version of it only opens the file. -/
inductive Session where
  | program (writes : List RowWrite)
  | other (schema : DeclaredSchema)

/-- What a session of the program came to: refused by the file, or ended, which an exception
    may have done.  A write that throws is not committed. -/
inductive SessionEnd where
  | refused
  | ended (exception : Option ObjectCreate.CreateError)

def session (sync : SyncTables) (removals : MoveRemovals) (s : StoredFile) :
    Session → StoredFile × Option SessionEnd
  | .program writes =>
    match updateSchema sync removals s.group programSchema.toSchema with
    | .error _ => (s, some .refused)
    | .ok (group, result) =>
      let rest := runUntil (writeRows (columnsOf group result)) s.rows writes
      (⟨group, rest.1⟩, some (.ended rest.2))
  | .other schema => ({ s with group := (launch sync removals s.group schema).1 }, none)

/-- The app's tables over the same sessions. -/
def sessionOfTables (tables : W3Stats.Group) : Session → W3Stats.Group × Option SessionEnd
  | .program writes =>
    let rest := runUntil writeGroup tables writes
    (rest.1, some (.ended rest.2))
  | .other _ => (tables, none)

/-- The file has the classes of the program, and its rows are the app's tables. -/
structure StoredFile.Holds (s : StoredFile) (tables : W3Stats.Group) : Prop where
  current : s.group.Current
  stores : s.group.Stores
  included : GrowingMap.Included programSchema.dataModel s.group.dataModel
  rows : ReadAs s.group.columns s.rows tables

section Sessions

variable {s : StoredFile} {tables : W3Stats.Group}

/-- Another version leaves the file to the program as it was. -/
theorem StoredFile.Holds.launch (sync : SyncTables) (removals : MoveRemovals)
    (h : s.Holds tables) (schema : DeclaredSchema) :
    StoredFile.Holds { s with group := (ObjectStore.launch sync removals s.group schema).1 }
      tables := by
  obtain ⟨hcurrent, hmodel, -⟩ := launch_spec sync removals h.current schema
  have hincluded := included_declare s.group.dataModel schema
  rw [← hmodel] at hincluded
  have hkept : (ObjectStore.launch sync removals s.group schema).1.Stores ∧
      (ObjectStore.launch sync removals s.group schema).1.columns = s.group.columns := by
    unfold ObjectStore.launch
    cases hupdate : updateSchema sync removals s.group schema.toSchema with
    | error e => exact ⟨h.stores, rfl⟩
    | ok opened =>
      exact (opened_of_updateSchema h.current hupdate).columns_kept h.current.sound h.stores
  refine ⟨hcurrent, hkept.1, h.included.trans hincluded, ?_⟩
  rw [hkept.2]
  exact h.rows

/-- The program is opened by a file that has its classes. -/
theorem StoredFile.Holds.opens (sync : SyncTables) (removals : MoveRemovals)
    (h : s.Holds tables) :
    ∃ file result, updateSchema sync removals s.group programSchema.toSchema =
      .ok (file, result) := by
  obtain ⟨-, -, hanswer⟩ := launch_spec sync removals h.current programSchema
  rw [declare_of_included validate_programSchema h.included] at hanswer
  unfold ObjectStore.launch at hanswer
  cases hupdate : updateSchema sync removals s.group programSchema.toSchema with
  | error e =>
    rw [hupdate] at hanswer
    cases hanswer
  | ok opened => exact ⟨opened.1, opened.2, rfl⟩

theorem StoredFile.Holds.session (sync : SyncTables) (removals : MoveRemovals)
    (h : s.Holds tables) (e : Session) :
    (ObjectStore.session sync removals s e).1.Holds (sessionOfTables tables e).1 ∧
      (ObjectStore.session sync removals s e).2 = (sessionOfTables tables e).2 := by
  cases e with
  | other schema => exact ⟨h.launch sync removals schema, rfl⟩
  | program writes =>
    obtain ⟨file, result, hupdate⟩ := h.opens sync removals
    have hopened := opened_of_updateSchema h.current hupdate
    have hlaunch := h.launch sync removals programSchema
    simp only [ObjectStore.launch, hupdate] at hlaunch
    simp only [ObjectStore.session, hupdate, sessionOfTables]
    rw [hopened.columnsOf_eq]
    obtain ⟨hrows, hend⟩ := runUntil_agree (writeRows_agree hlaunch.stores.serves)
      hlaunch.rows writes
    exact ⟨⟨hlaunch.current, hlaunch.stores, hlaunch.included, hrows⟩, by rw [hend]⟩

/-- The file that opened the program first, with no rows yet. -/
theorem holds_of_launch (hgroup : group.Current)
    (hopen : (launch sync removals group programSchema).2 = true) :
    StoredFile.Holds ⟨(launch sync removals group programSchema).1, fun _ => []⟩
      W3Stats.Group.empty := by
  have hincluded := (included_of_launch hgroup hopen).2
  have hcurrent := (launch_spec sync removals hgroup programSchema).1
  have hstores : (launch sync removals group programSchema).1.Stores := by
    unfold launch at hopen ⊢
    cases hupdate : updateSchema sync removals group programSchema.toSchema with
    | error e =>
      rw [hupdate] at hopen
      cases hopen
    | ok opened => exact (opened_of_updateSchema hgroup hupdate).stores
  exact ⟨hcurrent, hstores, hincluded, readAs_empty _⟩

/-- **The file keeps the app's tables.**  From the first launch of the program on, whatever
    versions open the file between its sessions, every session is opened and ends as it does
    over the app's tables, and the rows read through the columns are those tables. -/
theorem sessions_refine (sync : SyncTables) (removals : MoveRemovals) {group : Group}
    (hgroup : group.Current) (hopen : (launch sync removals group programSchema).2 = true)
    (sessions : List Session) :
    Agree (τ := Empty) (fun a b => a.1.Holds b.1 ∧ a.2 = b.2)
      (trace (fun s e => .ok (session sync removals s e))
        ⟨(launch sync removals group programSchema).1, fun _ => []⟩ sessions)
      (trace (fun tables e => .ok (sessionOfTables tables e)) W3Stats.Group.empty sessions) := by
  apply trace_agree (P := fun _ => True) (R := StoredFile.Holds)
  · intro s tables e h _
    exact h.session sync removals e
  · exact holds_of_launch hgroup hopen
  · exact fun _ _ => trivial

end Sessions

/-! ### A version with its properties in another order -/

def reorderedPlayer : ObjectSchema :=
  { storedClass .playerObject with
    persistedProperties := (storedClass .playerObject).persistedProperties.reverse }

def reorderedSchema : DeclaredSchema :=
  withPlayer reorderedPlayer (by constructor <;> decide)
    (by unfold ObjectSchema.PlainLists; decide)

/-- The file as the other version makes it, with the race before the link. -/
def reorderedFile : Group := (launch plainTables plainRemovals .empty reorderedSchema).1

theorem sessions_refine_reordered :
    Agree (τ := Empty) (fun a b => a.1.Holds b.1 ∧ a.2 = b.2)
      (trace (fun s e => .ok (session plainTables plainRemovals s e))
        ⟨(launch plainTables plainRemovals reorderedFile programSchema).1, fun _ => []⟩
        [.program [.add ⟨"Ann", none, "orc"⟩ false], .other racelessSchema,
          .program [.add ⟨"Ann", none, "elf"⟩ false, .delete 0]])
      (trace (fun tables e => .ok (sessionOfTables tables e)) W3Stats.Group.empty
        [.program [.add ⟨"Ann", none, "orc"⟩ false], .other racelessSchema,
          .program [.add ⟨"Ann", none, "elf"⟩ false, .delete 0]]) :=
  sessions_refine plainTables plainRemovals
    (launch_spec plainTables plainRemovals Group.Current.empty reorderedSchema).1 (by decide) _

example :
    (List.range 3).map (reorderedFile.columns.column .playerObject) = [1, 3, 2] := by decide

end ObjectStore

end W3Stats

import W3Stats.SchemaReread

/-!
# Opening a file

What `update_schema` comes to for any file: whether the schema is opened or refused, and
what the Realm then knows of the columns.
-/

namespace W3Stats

namespace ObjectStore

variable {sync : SyncTables} {removals : MoveRemovals} {group : Group} {schema : Schema}
  {object : ObjectSchema}

/-! ### The columns of the schema -/

/-- The property knows its column in the table. -/
def Property.PointsInto (prop : Property) (table : Table) : Prop :=
  ∃ (index : Nat) (column : Column), prop.tableColumn = some index ∧
    table.columns[index]? = some column ∧
      column.signature = (prop.name, prop.type, prop.objectType) ∧
        column.indexed = prop.requiresIndex

section Columns

variable {file : Group} {table : Table} {prop : Property}

/-- A column by its name, where the name is not that of the object IDs. -/
theorem findIdx?_name (h : table.names.Nodup) {index : Nat} {column : Column}
    (hcolumn : table.columns[index]? = some column) (hname : column.name ≠ objectIdColumnName) :
    (table.columns.findIdx? fun other => decide (other.name = column.name)) = some index := by
  obtain ⟨hlt, rfl⟩ := List.getElem?_eq_some_iff.mp hcolumn
  have hpairwise := List.pairwise_filter.mp (List.pairwise_map.mp h)
  apply List.findIdx?_eq_some_iff_getElem.mpr
  refine ⟨hlt, by simp, ?_⟩
  intro earlier hearlier heq
  have hsame : table.columns[earlier].name = table.columns[index].name := of_decide_eq_true heq
  have hne := List.pairwise_iff_getElem.mp hpairwise earlier index (hearlier.trans hlt) hlt hearlier
    (by simpa [hsame] using hname) (by simpa using hname)
  exact hne hsame

/-- The class of the file has each property of a class it holds. -/
theorem Table.Holds.exists_property (hholds : table.Holds file object) (hdeclared : object.Declared)
    (hprop : prop ∈ object.persistedProperties) :
    ∃ current ∈ (ObjectSchema.ofTable file object.name table).persistedProperties,
      (current.name, current.type, current.objectType) =
        (prop.name, prop.type, prop.objectType) := by
  have hlookup : object.shape.properties.lookup prop.name = some (prop.type, prop.objectType) :=
    (ObjectSchema.lookup_properties hdeclared.persisted_nodup).mpr ⟨prop, hprop, rfl, rfl⟩
  rw [← hholds.shape] at hlookup
  obtain ⟨current, hcurrent, hname, htype⟩ :=
    (ObjectSchema.lookup_properties (stored_ofTable _ _ hholds.names_nodup).names_nodup).mp hlookup
  exact ⟨current, hcurrent, by rw [hname, htype]⟩

theorem Table.Holds.pointsInto (hholds : table.Holds file object) (hdeclared : object.Declared)
    (hprop : prop ∈ object.persistedProperties) {current : Property}
    (hcurrent : current ∈ (ObjectSchema.ofTable file object.name table).persistedProperties)
    (hname : current.name = prop.name) :
    Property.PointsInto { prop with tableColumn := current.tableColumn } table := by
  obtain ⟨other, hother, hsame⟩ := hholds.exists_property hdeclared hprop
  have hstored := stored_ofTable file object.name hholds.names_nodup
  obtain rfl : other = current := List.inj_on_of_nodup_map hstored.names_nodup hother hcurrent
    ((congrArg Prod.fst hsame).trans hname.symm)
  obtain ⟨index, column, hcolumn, hvisible, hsignature, -, hindex⟩ :=
    exists_column hholds.names_nodup hother
  refine ⟨index, column, hindex, hcolumn, hsignature.trans hsame, ?_⟩
  have hcolumnName : column.name = prop.name := congrArg Prod.fst (hsignature.trans hsame)
  rw [hholds.indexed column (List.mem_of_getElem? hcolumn) hvisible, hcolumnName,
    hdeclared.requiresIndexAt hprop]
  rfl

/-- `set_schema_columns` finds each property its column. -/
theorem Table.Holds.pointsInto_setColumns (hfile : file.Sound) (hholds : table.Holds file object)
    (hdeclared : object.Declared) (hprop : prop ∈ (object.setColumns file).persistedProperties) :
    prop.PointsInto table := by
  have htable : file.getTable (tableNameForObjectType object.name) = some table :=
    hfile.getTable.mpr ⟨hholds.mem, hholds.name⟩
  simp only [ObjectSchema.setColumns, htable] at hprop
  obtain ⟨declared, hmem, rfl⟩ := List.mem_map.mp hprop
  obtain ⟨current, hcurrent, hsame⟩ := hholds.exists_property hdeclared hmem
  obtain ⟨index, column, hcolumn, hvisible, hsignature, -, hindex⟩ :=
    exists_column hholds.names_nodup hcurrent
  have hname : column.name = declared.name := congrArg Prod.fst (hsignature.trans hsame)
  have hfound := findIdx?_name hholds.names_nodup hcolumn
    (hname ▸ hdeclared.ne_objectId declared hmem)
  rw [hname] at hfound
  have hpoints := hholds.pointsInto hdeclared hmem hcurrent (congrArg Prod.fst hsame)
  rw [hindex] at hpoints
  rw [hfound]
  exact hpoints

/-- The property with the column of the current one of its name. -/
def copyColumn (currents : List Property) (prop : Property) : Property :=
  match currents.find? (fun current => decide (current.name = prop.name)) with
  | some current => { prop with tableColumn := current.tableColumn }
  | none => prop

/-- The columns of a class read from a file, copied one property after the other. -/
theorem foldl_setTableColumn {currents : List Property}
    (hcurrents : (currents.map Property.name).Nodup)
    (hobject : (object.persistedProperties.map Property.name).Nodup)
    (hnames : ∀ current ∈ currents, current.name ∈ object.persistedProperties.map Property.name) :
    currents.foldl ObjectSchema.setTableColumn object =
      { object with
        persistedProperties := object.persistedProperties.map (copyColumn currents) } := by
  induction currents generalizing object with
  | nil =>
    have hid : copyColumn [] = id := rfl
    rw [List.foldl_nil, hid, List.map_id]
  | cons current currents ih =>
    rw [List.map_cons] at hcurrents
    obtain ⟨hnot, hcurrents⟩ := List.nodup_cons.mp hcurrents
    have hstep : object.setTableColumn current =
        { object with persistedProperties := object.persistedProperties.map fun prop =>
            if prop.name = current.name then { prop with tableColumn := current.tableColumn }
            else prop } := by
      unfold ObjectSchema.setTableColumn
      rw [if_pos, setFirst_eq_map hobject]
      simpa [List.mem_map] using hnames current List.mem_cons_self
    have hsame : (object.setTableColumn current).persistedProperties.map Property.name =
        object.persistedProperties.map Property.name := by
      rw [hstep, List.map_map]
      apply List.map_congr_left
      intro prop _
      simp only [Function.comp_apply]
      split <;> rfl
    rw [List.foldl_cons, ih hcurrents (by rwa [hsame])
      (fun other hother => by rw [hsame]; exact hnames other (List.mem_cons_of_mem _ hother)),
      hstep]
    simp only [List.map_map]
    congr 2
    funext prop
    by_cases hname : prop.name = current.name
    · have hnone : (currents.find? fun other => decide (other.name = current.name)) = none := by
        apply List.find?_eq_none.mpr
        intro other hother heq
        exact hnot (List.mem_map.mpr ⟨other, hother, of_decide_eq_true heq⟩)
      simp [copyColumn, hname, hnone]
    · simp [copyColumn, hname, Ne.symm hname]

/-- The class with the columns of the one of its name. -/
def ObjectSchema.copyColumnsFrom (other : Schema) (object : ObjectSchema) : ObjectSchema :=
  object.copyColumns (other.classNamed object.name)

/-- Between sorted schemas each class is met with the one of its name. -/
theorem copyTableColumnsFrom_eq {other : Schema}
    (h : SortedZip.Ascending ObjectSchema.name schema.types)
    (hother : SortedZip.Ascending ObjectSchema.name other.types) :
    schema.copyTableColumnsFrom other =
      schema.mapTypes (ObjectSchema.copyColumnsFrom other)
        (fun object => object.copyColumns_name _) := by
  have hjoin := SortedZip.flatMap_zipMatching
    (F := fun stop : Option ObjectSchema × Option ObjectSchema =>
      (stop.1.map fun existing => existing.copyColumns stop.2).toList)
    (fun _ => rfl) h hother
  apply Schema.ext
  simp only [Schema.copyTableColumnsFrom, Schema.mapTypes, List.filterMap_eq_flatMap_toList]
  refine hjoin.trans ?_
  rw [List.map_eq_flatMap]
  rfl

theorem Table.Holds.copyColumns_eq (hfile : file.Sound) (hholds : table.Holds file object)
    (hdeclared : object.Declared) :
    object.copyColumnsFrom (schemaFromGroup file) =
      { object with
        persistedProperties := object.persistedProperties.map
          (copyColumn (ObjectSchema.ofTable file object.name table).persistedProperties) } := by
  have hstored := stored_ofTable file object.name hholds.names_nodup
  rw [ObjectSchema.copyColumnsFrom, hholds.classNamed hfile hdeclared.name_ne,
    ObjectSchema.copyColumns]
  apply foldl_setTableColumn hstored.names_nodup hdeclared.persisted_nodup
  intro current hcurrent
  obtain ⟨prop, hprop, hname, -⟩ :=
    ObjectSchema.exists_of_shape_eq hstored hdeclared hholds.shape hcurrent
  exact List.mem_map.mpr ⟨prop, hprop, hname⟩

/-- So does `copy_table_columns_from`, where nothing had to be changed. -/
theorem Table.Holds.pointsInto_copyColumns (hfile : file.Sound) (hholds : table.Holds file object)
    (hdeclared : object.Declared)
    (hprop : prop ∈ (object.copyColumnsFrom (schemaFromGroup file)).persistedProperties) :
    prop.PointsInto table := by
  have hstored := stored_ofTable file object.name hholds.names_nodup
  rw [hholds.copyColumns_eq hfile hdeclared] at hprop
  obtain ⟨declared, hmem, rfl⟩ := List.mem_map.mp hprop
  obtain ⟨current, hcurrent, hsame⟩ := hholds.exists_property hdeclared hmem
  have hname : current.name = declared.name := congrArg Prod.fst hsame
  rw [copyColumn, (KeyedTable.find?_key_eq_some hstored.names_nodup).mpr ⟨hcurrent, hname⟩]
  exact hholds.pointsInto hdeclared hmem hcurrent hname

end Columns

/-! ### One open -/

def ObjectSchema.forgetColumns (object : ObjectSchema) : ObjectSchema :=
  { object with persistedProperties := object.persistedProperties.map fun prop =>
      { prop with tableColumn := none } }

/-- What a successful open leaves: the file, and the schema that the Realm goes on with. -/
structure Opened (group file : Group) (schema result : Schema) : Prop where
  sound : file.Sound
  version : file.version = some schemaVersion
  /-- what `update_schema` asserts at its end -/
  settled : ∀ removals, (schemaFromGroup file).compare removals schema = []
  classes : result.types.map ObjectSchema.forgetColumns =
    schema.types.map ObjectSchema.forgetColumns
  columns : ∀ object ∈ result.types, ∃ table ∈ file.tables,
    table.name = tableNameForObjectType object.name ∧
      ∀ prop ∈ object.persistedProperties, prop.PointsInto table
  kept : ∀ table ∈ group.tables, ∃ later ∈ file.tables, later.name = table.name ∧
    later.columns.map (fun column => (column.name, column.type)) =
      table.columns.map fun column => (column.name, column.type)
  others : ∀ table ∈ group.tables, schema.classNamed (objectTypeForTableName table.name) = none →
    table ∈ file.tables

theorem columns_updatedTable (schema : Schema) (table : Table) :
    (updatedTable schema table).columns.map (fun column => (column.name, column.type)) =
      table.columns.map fun column => (column.name, column.type) := by
  unfold updatedTable
  split
  · rw [List.map_map]
    apply List.map_congr_left
    intro column _
    simp only [Function.comp_apply, reindexColumn]
    split <;> rfl
  · rfl

theorem forgetColumns_setColumns (file : Group) (object : ObjectSchema) :
    (object.setColumns file).forgetColumns = object.forgetColumns := by
  unfold ObjectSchema.setColumns ObjectSchema.forgetColumns
  split
  · rfl
  · simp

theorem Table.Holds.forgetColumns_copyColumns {file : Group} {table : Table} (hfile : file.Sound)
    (hholds : table.Holds file object) (hdeclared : object.Declared) :
    (object.copyColumnsFrom (schemaFromGroup file)).forgetColumns = object.forgetColumns := by
  rw [hholds.copyColumns_eq hfile hdeclared]
  unfold ObjectSchema.forgetColumns
  simp only [List.map_map]
  congr 1
  apply List.map_congr_left
  intro prop _
  simp only [Function.comp_apply, copyColumn]
  split <;> rfl

/-- The result has the columns however it found them. -/
theorem opened_of_updated (sync : SyncTables) (hgroup : group.Sound) (h : Valid schema)
    (hagrees : Agrees group schema)
    {f : ObjectSchema → ObjectSchema} (hname : ∀ object, (f object).name = object.name)
    (hforget : ∀ object ∈ schema.types, (f object).forgetColumns = object.forgetColumns)
    (hpoints : ∀ object ∈ schema.types, ∀ table : Table,
      table.Holds (updated sync group schema) object →
        ∀ prop ∈ (f object).persistedProperties, prop.PointsInto table) :
    Opened group (updated sync group schema) schema (schema.mapTypes f hname) where
  sound := updated_sound sync hgroup h
  version := rfl
  settled removals := compare_of_holds (updated_sound sync hgroup h) h fun object hobject =>
    exists_holds sync hgroup h hagrees hobject
  classes := by
    simp only [Schema.mapTypes, List.map_map]
    exact List.map_congr_left hforget
  columns := by
    intro object hobject
    obtain ⟨declared, hdeclared, rfl⟩ := List.mem_map.mp hobject
    obtain ⟨table, hholds⟩ := exists_holds sync hgroup h hagrees hdeclared
    exact ⟨table, hholds.mem, by rw [hholds.name, hname],
      hpoints declared hdeclared table hholds⟩
  kept table htable := ⟨updatedTable schema table,
    List.mem_append_left _ (List.mem_map_of_mem htable), updatedTable_name schema table,
    columns_updatedTable schema table⟩
  others table htable hnone := by
    have hsame : updatedTable schema table = table := by rw [updatedTable, hnone]
    have hmem : updatedTable schema table ∈ (updated sync group schema).tables :=
      List.mem_append_left _ (List.mem_map_of_mem htable)
    rwa [hsame] at hmem

/-- A file of another version is refused before anything is compared with it. -/
theorem updateSchema_of_version (hvalid : schema.validate = []) {version : Nat}
    (hversion : group.version = some version) (hne : version ≠ schemaVersion) :
    updateSchema sync removals group schema =
      .error (.invalidSchemaVersion version schemaVersion) := by
  have hlater : schemaVersion < version := Nat.pos_of_ne_zero hne
  unfold updateSchema
  rw [if_neg (by simp [hvalid]), hversion]
  dsimp only
  rw [if_neg fun hsame => hne (Option.some.inj hsame.1), if_pos hlater]

theorem updateSchema_of_agrees (sync : SyncTables) (removals : MoveRemovals)
    (hgroup : group.Sound)
    (hversion : group.version = none ∨ group.version = some schemaVersion)
    (hvalidate : schema.validate = []) (h : Valid schema) (hagrees : Agrees group schema)
    (hfits : NewNamesFit group schema) :
    ∃ result, updateSchema sync removals group schema = .ok (updated sync group schema, result) ∧
      Opened group (updated sync group schema) schema result := by
  have happly := applySchemaChanges_of_agrees sync removals hgroup h hagrees hfits hversion
  have hsound := updated_sound sync hgroup h
  have hwrite : Opened group (updated sync group schema) schema
      (setSchemaColumns (updated sync group schema) schema) :=
    opened_of_updated sync hgroup h hagrees _ (fun object _ => forgetColumns_setColumns _ object)
      fun object hobject table hholds prop hprop =>
        hholds.pointsInto_setColumns hsound (h.declared object hobject) hprop
  unfold updateSchema
  rw [if_neg (by simp [hvalidate])]
  dsimp only
  by_cases hnothing : group.version = some schemaVersion ∧
      (schemaFromGroup group).compare removals schema = []
  · -- nothing to change: the file is the updated file already
    rw [if_pos hnothing]
    have hsame : group = updated sync group schema := by
      have hfold := foldlM_changes sync hgroup h hagrees hfits
      rw [← compare_of_agrees removals hgroup h hagrees, hnothing.2] at hfold
      have hgroup' := Except.ok.inj hfold
      rwa [hnothing.1] at hgroup'
    refine ⟨schema.copyTableColumnsFrom (schemaFromGroup group), by rw [← hsame], ?_⟩
    rw [copyTableColumnsFrom_eq h.ascending hgroup.ascending]
    have hcopy := opened_of_updated sync hgroup h hagrees
      (f := ObjectSchema.copyColumnsFrom (schemaFromGroup (updated sync group schema)))
      (fun object => object.copyColumns_name _)
      (fun object hobject => by
        obtain ⟨table, hholds⟩ := exists_holds sync hgroup h hagrees hobject
        exact hholds.forgetColumns_copyColumns hsound (h.declared object hobject))
      fun object hobject table hholds prop hprop =>
        hholds.pointsInto_copyColumns hsound (h.declared object hobject) hprop
    rw [← hsame] at hcopy ⊢
    exact hcopy
  · rw [if_neg hnothing]
    refine ⟨_, ?_, hwrite⟩
    rcases hversion with hversion | hversion
    · simp only [hversion] at happly ⊢
      rw [happly]
      rfl
    · simp only [hversion, lt_irrefl, if_false]
      rw [happly]
      rfl

theorem updateSchema_of_not_agrees (sync : SyncTables) (removals : MoveRemovals)
    (hgroup : group.Sound)
    (hversion : group.version = none ∨ group.version = some schemaVersion)
    (hvalidate : schema.validate = []) (h : Valid schema) (hnot : ¬ Agrees group schema)
    (hfits : NewNamesFit group schema) :
    ∃ errors, updateSchema sync removals group schema = .error (.schemaMismatch errors) ∧
      errors ≠ [] ∧ errors.Perm (mismatches group schema) := by
  have hversion' : group.version = some schemaVersion := by
    rcases hversion with hversion | hversion
    · exact absurd (agrees_of_unversioned hgroup hversion) hnot
    · exact hversion
  obtain ⟨errors, happly, hne, hperm⟩ :=
    applySchemaChanges_of_not_agrees sync removals hgroup h hnot hfits hversion'
  refine ⟨errors, ?_, hne, hperm⟩
  have hcompare : (schemaFromGroup group).compare removals schema ≠ [] := by
    intro hnil
    rw [hnil] at happly
    simp [applySchemaChanges, hversion', applyNonMigrationChanges, pure, Except.pure] at happly
  unfold updateSchema
  rw [if_neg (by simp [hvalidate])]
  dsimp only
  rw [if_neg fun hsame => hcompare hsame.2]
  simp only [hversion', lt_irrefl, if_false]
  rw [happly]
  rfl

/-- What the core throws at a name is what the open fails with. -/
theorem updateSchema_of_nameError (sync : SyncTables) (removals : MoveRemovals)
    (hgroup : group.Sound)
    (hversion : group.version = none ∨ group.version = some schemaVersion)
    (hvalidate : schema.validate = []) (h : Valid schema) {e : UpdateError}
    (herror : nameError group schema = some e) :
    updateSchema sync removals group schema = .error e := by
  have happly := applySchemaChanges_of_nameError sync removals hgroup h herror hversion
  have hcompare : (schemaFromGroup group).compare removals schema ≠ [] := by
    intro hnil
    rw [hnil] at happly
    rcases hversion with hversion | hversion
    · simp [applySchemaChanges, hversion, createInitialTables, pure, Except.pure,
        Except.map] at happly
    · simp [applySchemaChanges, hversion, applyNonMigrationChanges, pure, Except.pure] at happly
  unfold updateSchema
  rw [if_neg (by simp [hvalidate])]
  dsimp only
  rw [if_neg fun hsame => hcompare hsame.2]
  rcases hversion with hversion | hversion
  · simp only [hversion]
    rw [happly]
    rfl
  · simp only [hversion, lt_irrefl, if_false]
    rw [happly]
    rfl

/-- **One open of a file.**  A declared schema that is not valid is refused, and so is every
    schema by a file of another version, and one with new classes whose names the core does
    not take.  Otherwise the schema is opened if no class of the file has another shape, and
    refused with all the differences if one has. -/
theorem updateSchema_settles (sync : SyncTables) (removals : MoveRemovals) {group : Group}
    (schema : DeclaredSchema) (hgroup : group.Sound) :
    (schema.validate ≠ [] ∧
        updateSchema sync removals group schema.toSchema =
          .error (.schemaValidation schema.validate)) ∨
      (schema.validate = [] ∧ ∃ version, group.version = some version ∧ version ≠ schemaVersion ∧
        updateSchema sync removals group schema.toSchema =
          .error (.invalidSchemaVersion version schemaVersion)) ∨
      (schema.validate = [] ∧ (group.version = none ∨ group.version = some schemaVersion) ∧
        ¬ NewNamesFit group schema.toSchema ∧
        ∃ e, nameError group schema.toSchema = some e ∧
          updateSchema sync removals group schema.toSchema = .error e) ∨
      (schema.validate = [] ∧ (group.version = none ∨ group.version = some schemaVersion) ∧
        NewNamesFit group schema.toSchema ∧ Agrees group schema.toSchema ∧
        ∃ file result, updateSchema sync removals group schema.toSchema = .ok (file, result) ∧
          Opened group file schema.toSchema result) ∨
      (schema.validate = [] ∧ (group.version = none ∨ group.version = some schemaVersion) ∧
        NewNamesFit group schema.toSchema ∧ ¬ Agrees group schema.toSchema ∧
        ∃ errors, updateSchema sync removals group schema.toSchema =
            .error (.schemaMismatch errors) ∧
          errors ≠ [] ∧ errors.Perm (mismatches group schema.toSchema)) := by
  by_cases hvalidate : schema.validate = []
  · have hvalid := schema.valid hvalidate
    by_cases hversion : group.version = none ∨ group.version = some schemaVersion
    · cases herror : nameError group schema.toSchema with
      | some e =>
        have hnot : ¬ NewNamesFit group schema.toSchema := by
          intro hfits
          rw [(nameError_eq_none hvalid).mpr hfits] at herror
          cases herror
        exact .inr (.inr (.inl ⟨hvalidate, hversion, hnot, e, rfl,
          updateSchema_of_nameError sync removals hgroup hversion hvalidate hvalid herror⟩))
      | none =>
        have hfits := (nameError_eq_none hvalid).mp herror
        by_cases hagrees : Agrees group schema.toSchema
        · obtain ⟨result, hresult, hopened⟩ := updateSchema_of_agrees sync removals hgroup
            hversion hvalidate hvalid hagrees hfits
          exact .inr (.inr (.inr (.inl
            ⟨hvalidate, hversion, hfits, hagrees, _, result, hresult, hopened⟩)))
        · have hrefused := updateSchema_of_not_agrees sync removals hgroup hversion
            hvalidate hvalid hagrees hfits
          exact .inr (.inr (.inr (.inr ⟨hvalidate, hversion, hfits, hagrees, hrefused⟩)))
    · obtain ⟨hnone, hne⟩ := not_or.mp hversion
      obtain ⟨version, hsome⟩ := Option.ne_none_iff_exists'.mp hnone
      have hother : version ≠ schemaVersion := fun heq => hne (heq ▸ hsome)
      exact .inr (.inl ⟨hvalidate, version, hsome, hother,
        updateSchema_of_version hvalidate hsome hother⟩)
  · refine .inl ⟨hvalidate, ?_⟩
    unfold updateSchema
    rw [if_pos hvalidate]

end ObjectStore

end W3Stats

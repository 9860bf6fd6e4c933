import W3Stats.SchemaTables

/-!
# What one update of the schema does

For every file and every schema a program can declare.
-/

namespace W3Stats

namespace ObjectStore

variable {sync : SyncTables} {removals : MoveRemovals} {group : Group} {schema : Schema}
  {object : ObjectSchema}

/-! ### The updated file -/

/-- The table of a new class. -/
def initialTable (sync : SyncTables) (object : ObjectSchema) : Table where
  name := tableNameForObjectType object.name
  columns := (bornTable sync object).columns ++ initialColumns object.persistedProperties

/-- A table of the file, with the indexes that the schema requires. -/
def updatedTable (schema : Schema) (table : Table) : Table :=
  match schema.classNamed (objectTypeForTableName table.name) with
  | some object =>
    { table with columns := table.columns.map (reindexColumn object.requiresIndexAt) }
  | none => table

/-- What a successful update leaves. -/
def updated (sync : SyncTables) (group : Group) (schema : Schema) : Group where
  tables := group.tables.map (updatedTable schema) ++
    (newClasses group schema).map (initialTable sync)
  pk := group.pk ++ (newClasses group schema).flatMap primaryKeyRow
  version := some schemaVersion

theorem Valid.classNamed_eq_some (h : Valid schema) {name : String} :
    schema.classNamed name = some object ↔ object ∈ schema.types ∧ object.name = name :=
  KeyedTable.find?_key_eq_some h.ascending.nodup

theorem Valid.find?_tableName (h : Valid schema) (name : String) :
    (schema.types.find? fun object => decide (tableNameForObjectType object.name = name)) =
      schema.classNamed (objectTypeForTableName name) := by
  have hnodup : (schema.types.map fun object => tableNameForObjectType object.name).Nodup := by
    apply List.pairwise_map.mpr
    exact (List.pairwise_map.mp h.ascending.nodup).imp fun hne heq => hne (tableName_injective heq)
  apply Option.ext
  intro object
  rw [KeyedTable.find?_key_eq_some hnodup, h.classNamed_eq_some]
  constructor
  · rintro ⟨hobject, hname⟩
    exact ⟨hobject, (tableName_eq_iff (h.declared object hobject).name_ne).mp hname⟩
  · rintro ⟨hobject, hname⟩
    exact ⟨hobject, (tableName_eq_iff (h.declared object hobject).name_ne).mpr hname⟩

/-- The file once the missing tables are there. -/
def withNewTables (sync : SyncTables) (group : Group) (schema : Schema) : Group :=
  { group with
    tables := group.tables ++ (newClasses group schema).map (bornTable sync)
    pk := group.pk ++ (newClasses group schema).flatMap primaryKeyRow }

theorem foldlM_missingTables (h : Valid schema) :
    (Schema.missingTables (schemaFromGroup group) schema).foldlM (createInitialTable sync) group =
      match (newClasses group schema).findSome? ObjectSchema.tableError with
      | some e => .error e
      | none => .ok (withNewTables sync group schema) := by
  rw [missingTables_eq]
  exact foldlM_addTable h fun object hobject => (mem_newClasses.mp hobject).1

/-- What the core throws at the names of the new classes: the tables come before the columns. -/
def nameError (group : Group) (schema : Schema) : Option UpdateError :=
  ((newClasses group schema).findSome? ObjectSchema.tableError).or
    (if (newClasses group schema).all fun object =>
        initialColumnsFit object.persistedProperties then none
      else some .columnNameTooLong)

theorem nameError_eq_none (h : Valid schema) :
    nameError group schema = none ↔ NewNamesFit group schema := by
  have hfits : ∀ object ∈ newClasses group schema, object.NamesFit ↔
      object.tableError = none ∧ initialColumnsFit object.persistedProperties = true :=
    fun object hobject => (h.declared object (mem_newClasses.mp hobject).1).namesFit_iff
  simp only [nameError, Option.or_eq_none_iff, List.findSome?_eq_none_iff, ite_eq_left_iff,
    reduceCtorEq, imp_false, not_not, List.all_eq_true]
  constructor
  · rintro ⟨htables, hcolumns⟩ object hobject
    exact (hfits object hobject).mpr ⟨htables object hobject, hcolumns object hobject⟩
  · intro hnew
    exact ⟨fun object hobject => ((hfits object hobject).mp (hnew object hobject)).1,
      fun object hobject => ((hfits object hobject).mp (hnew object hobject)).2⟩

theorem foldlM_missingTables_of_fits (h : Valid schema) (hfits : NewNamesFit group schema) :
    (Schema.missingTables (schemaFromGroup group) schema).foldlM (createInitialTable sync) group =
      .ok (withNewTables sync group schema) := by
  have hnone := (Option.or_eq_none_iff.mp ((nameError_eq_none h).mpr hfits)).1
  rw [foldlM_missingTables h, hnone]

theorem mem_names_withNewTables (hgroup : group.Sound) (hobject : object ∈ schema.types) :
    tableNameForObjectType object.name ∈
      (withNewTables sync group schema).tables.map Table.name := by
  unfold withNewTables
  rw [List.map_append]
  cases hfind : (schemaFromGroup group).classNamed object.name with
  | some existing => exact List.mem_append_left _ (hgroup.stored hfind).2.2
  | none =>
    apply List.mem_append_right
    rw [List.map_map]
    exact List.mem_map.mpr ⟨object, mem_newClasses.mpr ⟨hobject, hfind⟩, rfl⟩

/-- A class with a table gets its indexes. -/
theorem classColumns_of_table (hgroup : group.Sound) (h : Valid schema)
    (hagrees : Agrees group schema) (hobject : object ∈ schema.types) {table : Table}
    (htable : table ∈ group.tables) (hname : table.name = tableNameForObjectType object.name) :
    classColumns group object table.columns =
      table.columns.map (reindexColumn object.requiresIndexAt) := by
  have hfind : (schemaFromGroup group).classNamed object.name =
      some (ObjectSchema.ofTable group object.name table) :=
    hgroup.classNamed_eq_some.mpr ⟨(h.declared object hobject).name_ne, table, htable, hname, rfl⟩
  have hnodup := hgroup.names_nodup table htable
  unfold classColumns
  rw [hfind]
  dsimp only
  rw [compareColumns_of_shape (stored_ofTable _ _ hnodup) (h.declared object hobject)
    (hagrees object hobject _ hfind)]
  exact foldl_reindex hnodup object.requiresIndexAt

/-- The changes that need no migration make the updated file. -/
theorem foldlM_changes (sync : SyncTables) (hgroup : group.Sound) (h : Valid schema)
    (hagrees : Agrees group schema) (hfits : NewNamesFit group schema) :
    (Schema.missingTables (schemaFromGroup group) schema ++
        schema.types.flatMap (Schema.tableChanges (schemaFromGroup group))).foldlM
      (createInitialTable sync) group =
        .ok { updated sync group schema with version := group.version } := by
  rw [List.foldlM_append, foldlM_missingTables_of_fits h hfits]
  refine (foldlM_flatMap_tableChanges hgroup h hagrees hfits (fun _ => id)
    fun object hobject => mem_names_withNewTables hgroup hobject).trans ?_
  rw [foldl_updateColumns h.ascending.nodup, withNewTables, List.map_append, List.map_map]
  unfold updated
  congr 3
  · apply List.map_congr_left
    intro table htable
    rw [h.find?_tableName, updatedTable]
    cases hfind : schema.classNamed (objectTypeForTableName table.name) with
    | none => rfl
    | some object =>
      obtain ⟨hobject, hname⟩ := h.classNamed_eq_some.mp hfind
      have htableName := (tableName_eq_iff (h.declared object hobject).name_ne).mpr hname
      dsimp only
      rw [classColumns_of_table hgroup h hagrees hobject htable htableName.symm]
  · apply List.map_congr_left
    intro object hobject
    obtain ⟨hobject, hfind⟩ := mem_newClasses.mp hobject
    have hself : schema.classNamed object.name = some object :=
      h.classNamed_eq_some.mpr ⟨hobject, rfl⟩
    simp only [Function.comp_apply, bornTable, h.find?_tableName, objectTypeForTableName_tableName,
      hself, classColumns, hfind, initialTable]

/-! ### Where the file agrees with the schema -/

theorem needsMigration_of_isRemoveProperty {change : SchemaChange}
    (h : change.needsMigration = false) : change.isRemoveProperty = false := by
  cases change <;> first | rfl | cases h

theorem Agrees.needsMigration (hgroup : group.Sound) (h : Valid schema)
    (hagrees : Agrees group schema) {change : SchemaChange}
    (hchange : change ∈ schema.types.flatMap (Schema.tableChanges (schemaFromGroup group))) :
    change.needsMigration = false := by
  obtain ⟨object, hobject, hchange⟩ := List.mem_flatMap.mp hchange
  unfold Schema.tableChanges at hchange
  cases hfind : (schemaFromGroup group).classNamed object.name with
  | none =>
    rw [hfind] at hchange
    rw [List.mem_singleton.mp hchange]
    rfl
  | some existing =>
    rw [hfind] at hchange
    simp only [Schema.stopChanges] at hchange
    rw [compareColumns_of_shape (hgroup.stored hfind).1 (h.declared object hobject)
      (hagrees object hobject existing hfind)] at hchange
    obtain ⟨prop, -, hchange⟩ := List.mem_flatMap.mp hchange
    unfold reindex at hchange
    split_ifs at hchange
    · cases hchange
    · rw [List.mem_singleton.mp hchange]
      rfl
    · rw [List.mem_singleton.mp hchange]
      rfl

theorem Agrees.needsMigration_compare (hgroup : group.Sound) (h : Valid schema)
    (hagrees : Agrees group schema) {change : SchemaChange}
    (hchange : change ∈ Schema.missingTables (schemaFromGroup group) schema ++
      schema.types.flatMap (Schema.tableChanges (schemaFromGroup group))) :
    change.needsMigration = false := by
  rcases List.mem_append.mp hchange with hchange | hchange
  · obtain ⟨object, -, -, rfl⟩ := Schema.addTable_of_mem_missingTables hchange
    rfl
  · exact hagrees.needsMigration hgroup h hchange

theorem compare_of_agrees (removals : MoveRemovals) (hgroup : group.Sound) (h : Valid schema)
    (hagrees : Agrees group schema) :
    (schemaFromGroup group).compare removals schema =
      Schema.missingTables (schemaFromGroup group) schema ++
        schema.types.flatMap (Schema.tableChanges (schemaFromGroup group)) := by
  obtain ⟨rest, hcompare, -, hrest⟩ :=
    Schema.compare_spec removals hgroup.ascending h.ascending
  rw [hcompare, hrest fun change hchange =>
    needsMigration_of_isRemoveProperty (hagrees.needsMigration hgroup h hchange)]

/-- Without a migration both appliers do the same. -/
theorem applyNonMigrationChange_eq {state : Group × List String} {change : SchemaChange}
    (h : change.needsMigration = false) :
    applyNonMigrationChange sync state change =
      (createInitialTable sync state.1 change).map (·, state.2) := by
  cases change <;> first | rfl | cases h

theorem foldlM_applyNonMigrationChange {changes : List SchemaChange} {errors : List String}
    (h : ∀ change ∈ changes, change.needsMigration = false) :
    changes.foldlM (applyNonMigrationChange sync) (group, errors) =
      (changes.foldlM (createInitialTable sync) group).map (·, errors) := by
  induction changes generalizing group with
  | nil => rfl
  | cons change changes ih =>
    rw [List.foldlM_cons, List.foldlM_cons,
      applyNonMigrationChange_eq (h change List.mem_cons_self)]
    cases hstep : createInitialTable sync group change with
    | error e => rfl
    | ok next => exact ih fun other hother => h other (List.mem_cons_of_mem _ hother)

theorem applySchemaChanges_of_agrees (sync : SyncTables) (removals : MoveRemovals)
    (hgroup : group.Sound) (h : Valid schema)
    (hagrees : Agrees group schema) (hfits : NewNamesFit group schema)
    (hversion : group.version = none ∨ group.version = some schemaVersion) :
    applySchemaChanges sync group ((schemaFromGroup group).compare removals schema) =
      .ok (updated sync group schema) := by
  have hfold := foldlM_changes sync hgroup h hagrees hfits
  have hnone : ∀ change ∈ Schema.missingTables (schemaFromGroup group) schema ++
      schema.types.flatMap (Schema.tableChanges (schemaFromGroup group)),
      change.needsMigration = false := fun change => hagrees.needsMigration_compare hgroup h
  rw [compare_of_agrees removals hgroup h hagrees]
  unfold applySchemaChanges
  rcases hversion with hversion | hversion
  · rw [hversion]
    dsimp only
    rw [createInitialTables, hfold]
    rfl
  · rw [hversion]
    dsimp only
    rw [applyNonMigrationChanges, foldlM_applyNonMigrationChange hnone, hfold, hversion]
    rfl

/-! ### Where it does not -/

/-- What a change adds to the errors of a mismatch. -/
def SchemaChange.mismatch (change : SchemaChange) : List String :=
  if change.needsMigration then change.explain else []

/-- The differences that an update without a migration reports. -/
def mismatches (group : Group) (schema : Schema) : List String :=
  (schema.types.flatMap (Schema.tableChanges (schemaFromGroup group))).flatMap SchemaChange.mismatch

theorem explain_ne_nil {change : SchemaChange} (h : change.needsMigration) :
    change.explain ≠ [] := by
  cases change with
  | changePrimaryKey existing prop =>
    cases prop with
    | none => exact List.cons_ne_nil _ _
    | some prop =>
      unfold SchemaChange.explain
      dsimp only
      split <;> exact List.cons_ne_nil _ _
  | addTable => cases h
  | addInitialProperties => cases h
  | addIndex => cases h
  | removeIndex => cases h
  | _ => exact List.cons_ne_nil _ _

theorem applyNonMigrationChange_of_needsMigration {state : Group × List String}
    {change : SchemaChange} (h : change.needsMigration) :
    applyNonMigrationChange sync state change = .ok (state.1, state.2 ++ change.explain) := by
  cases change <;> first | rfl | cases h

/-- Without a migration a comparison of two classes has index changes only. -/
theorem exists_of_mem_compareColumns {existing target : ObjectSchema} {change : SchemaChange}
    (hchange : change ∈ compareColumns existing target) (h : change.needsMigration = false) :
    ∃ prop ∈ existing.persistedProperties,
      change = .addIndex existing prop ∨ change = .removeIndex existing prop := by
  rcases List.mem_append.mp hchange with hchange | hchange
  · rcases List.mem_append.mp hchange with hchange | hchange
    · obtain ⟨prop, hprop, hchange⟩ := List.mem_flatMap.mp hchange
      refine ⟨prop, hprop, ?_⟩
      unfold compareProperty at hchange
      grind [SchemaChange.needsMigration]
    · split_ifs at hchange
      · rw [List.mem_singleton.mp hchange] at h
        cases h
      · cases hchange
  · obtain ⟨prop, -, rfl⟩ := List.mem_map.mp hchange
    cases h

/-- The core takes the names of the columns of a new class. -/
def SchemaChange.columnsFit : SchemaChange → Bool
  | .addInitialProperties object => initialColumnsFit object.persistedProperties
  | _ => true

/-- Every change after the new tables is made or reported, in whichever order, or the core
    throws. -/
theorem applyNonMigrationChange_tableChanges (sync : SyncTables) (errors : List String)
    {file : Group} (hfile : file.Sound) (h : Valid schema) {change : SchemaChange}
    (hchange : change ∈ schema.types.flatMap (Schema.tableChanges (schemaFromGroup file)))
    (htables : ∀ object ∈ schema.types,
      tableNameForObjectType object.name ∈ group.tables.map Table.name) :
    ∃ next, applyNonMigrationChange sync (group, errors) change =
        (if change.columnsFit then .ok (next, errors ++ change.mismatch)
        else .error .columnNameTooLong) ∧
      next.tables.map Table.name = group.tables.map Table.name := by
  cases hneeds : change.needsMigration with
  | true =>
    have hfits : change.columnsFit = true := by
      cases change <;> first | rfl | cases hneeds
    exact ⟨group, by
      rw [applyNonMigrationChange_of_needsMigration hneeds, SchemaChange.mismatch,
        if_pos hneeds, if_pos hfits], rfl⟩
  | false =>
    have hmismatch : change.mismatch = [] := if_neg (by simp [hneeds])
    rw [applyNonMigrationChange_eq hneeds, hmismatch, List.append_nil]
    obtain ⟨object, hobject, hchange⟩ := List.mem_flatMap.mp hchange
    unfold Schema.tableChanges at hchange
    cases hfind : (schemaFromGroup file).classNamed object.name with
    | none =>
      rw [hfind] at hchange
      rw [List.mem_singleton.mp hchange]
      have hcolumns := foldlM_addColumn (h.storable object hobject) htables hobject
      refine ⟨group.updateColumns (tableNameForObjectType object.name) fun columns =>
        columns ++ initialColumns object.persistedProperties, ?_, Group.names_updateColumns _⟩
      have hfits : (SchemaChange.addInitialProperties object).columnsFit =
          initialColumnsFit object.persistedProperties := rfl
      simp only [hfits, createInitialTable, addInitialColumns, hcolumns]
      cases initialColumnsFit object.persistedProperties <;> rfl
    | some existing =>
      obtain ⟨-, hname, -⟩ := hfile.stored hfind
      obtain ⟨-, table, htable, -, hexisting⟩ := hfile.classNamed_eq_some.mp hfind
      rw [hfind] at hchange
      obtain ⟨prop, hprop, hindex⟩ := exists_of_mem_compareColumns hchange hneeds
      rw [hexisting] at hprop
      obtain ⟨index, -, -, -, -, -, hcolumn⟩ := exists_column (hfile.names_nodup table htable) hprop
      have htableName : tableNameForObjectType existing.name ∈ group.tables.map Table.name := by
        rw [hname]
        exact htables object hobject
      rcases hindex with rfl | rfl
      · exact ⟨_, congrArg (Except.map (·, errors))
          (setSearchIndex_eq true htableName ⟨index, hcolumn⟩),
          Group.names_updateColumns _⟩
      · exact ⟨_, congrArg (Except.map (·, errors))
          (setSearchIndex_eq false htableName ⟨index, hcolumn⟩),
          Group.names_updateColumns _⟩

theorem foldlM_applyNonMigrationChange_tableChanges (sync : SyncTables) (group : Group)
    (errors : List String) {file : Group} (hfile : file.Sound) (h : Valid schema)
    {changes : List SchemaChange}
    (hchanges : ∀ change ∈ changes,
      change ∈ schema.types.flatMap (Schema.tableChanges (schemaFromGroup file)))
    (htables : ∀ object ∈ schema.types,
      tableNameForObjectType object.name ∈ group.tables.map Table.name) :
    ∃ last, changes.foldlM (applyNonMigrationChange sync) (group, errors) =
      if changes.all SchemaChange.columnsFit then
        .ok (last, errors ++ changes.flatMap SchemaChange.mismatch)
      else .error .columnNameTooLong := by
  induction changes generalizing group errors with
  | nil => exact ⟨group, by rw [List.flatMap_nil, List.append_nil]; rfl⟩
  | cons change changes ih =>
    obtain ⟨next, hstep, hnames⟩ := applyNonMigrationChange_tableChanges sync errors hfile h
      (hchanges change List.mem_cons_self) htables
    obtain ⟨last, hlast⟩ := ih next (errors ++ change.mismatch)
      (fun other hother => hchanges other (List.mem_cons_of_mem _ hother))
      (by rwa [hnames])
    refine ⟨last, ?_⟩
    rw [List.foldlM_cons, hstep, List.flatMap_cons, ← List.append_assoc, List.all_cons]
    cases change.columnsFit with
    | false => rfl
    | true => exact hlast

/-- A change of a class that is there gives no new class its columns. -/
theorem columnsFit_of_mem_compareColumns {existing target : ObjectSchema} {change : SchemaChange}
    (hchange : change ∈ compareColumns existing target) : change.columnsFit = true := by
  rcases List.mem_append.mp hchange with hchange | hchange
  · rcases List.mem_append.mp hchange with hchange | hchange
    · obtain ⟨prop, -, hchange⟩ := List.mem_flatMap.mp hchange
      unfold compareProperty at hchange
      grind [SchemaChange.columnsFit]
    · split_ifs at hchange
      · rw [List.mem_singleton.mp hchange]
        rfl
      · cases hchange
  · obtain ⟨prop, -, rfl⟩ := List.mem_map.mp hchange
    rfl

theorem all_columnsFit_tableChanges :
    (schema.types.flatMap (Schema.tableChanges (schemaFromGroup group))).all
        SchemaChange.columnsFit =
      (newClasses group schema).all fun object => initialColumnsFit object.persistedProperties := by
  unfold newClasses
  rw [List.all_flatMap, List.all_filter]
  congr 1
  funext object
  unfold Schema.tableChanges
  cases hfind : (schemaFromGroup group).classNamed object.name with
  | none => simp [Schema.stopChanges, SchemaChange.columnsFit]
  | some existing =>
    simp only [Schema.stopChanges, Option.isNone_some, Bool.not_false, Bool.true_or]
    exact List.all_eq_true.mpr fun change => columnsFit_of_mem_compareColumns

/-- All changes of a comparison: what the core throws, or what is reported. -/
theorem foldlM_compare (sync : SyncTables) (removals : MoveRemovals) (hgroup : group.Sound)
    (h : Valid schema) :
    ∃ last errors, ((schemaFromGroup group).compare removals schema).foldlM
        (applyNonMigrationChange sync) (group, []) =
          (match nameError group schema with
          | some e => .error e
          | none => .ok (last, errors)) ∧
      errors.Perm (mismatches group schema) := by
  obtain ⟨rest, hcompare, hperm, -⟩ :=
    Schema.compare_spec removals hgroup.ascending h.ascending
  -- the new tables come first
  have hmissing : (Schema.missingTables (schemaFromGroup group) schema).foldlM
      (applyNonMigrationChange sync) (group, []) =
        ((Schema.missingTables (schemaFromGroup group) schema).foldlM
          (createInitialTable sync) group).map (·, []) := by
    apply foldlM_applyNonMigrationChange
    intro change hchange
    obtain ⟨object, -, -, rfl⟩ := Schema.addTable_of_mem_missingTables hchange
    rfl
  obtain ⟨last, hlast⟩ := foldlM_applyNonMigrationChange_tableChanges sync
    (withNewTables sync group schema) [] hgroup h
    (fun change hchange => hperm.mem_iff.mp hchange)
    fun object hobject => mem_names_withNewTables hgroup hobject
  rw [List.Perm.all_eq hperm, all_columnsFit_tableChanges] at hlast
  refine ⟨last, rest.flatMap SchemaChange.mismatch, ?_, hperm.flatMap_right _⟩
  rw [hcompare, List.foldlM_append, hmissing, foldlM_missingTables h]
  unfold nameError
  cases (newClasses group schema).findSome? ObjectSchema.tableError with
  | some e => rfl
  | none =>
    refine hlast.trans ?_
    cases (newClasses group schema).all fun object =>
      initialColumnsFit object.persistedProperties <;> rfl

/-- A class in another shape is reported. -/
theorem mismatches_ne_nil (hgroup : group.Sound) (h : Valid schema) (hnot : ¬ Agrees group schema) :
    mismatches group schema ≠ [] := by
  intro hnil
  apply hnot
  intro object hobject existing hfind
  apply shape_eq_of_needsMigration (hgroup.stored hfind).1 (h.declared object hobject)
  intro change hchange
  by_contra hneeds
  have hmem : change ∈ schema.types.flatMap (Schema.tableChanges (schemaFromGroup group)) := by
    refine List.mem_flatMap.mpr ⟨object, hobject, ?_⟩
    unfold Schema.tableChanges
    rw [hfind]
    exact hchange
  have hmismatch := List.flatMap_eq_nil_iff.mp hnil change hmem
  rw [SchemaChange.mismatch, if_pos (by simpa using hneeds)] at hmismatch
  exact explain_ne_nil (by simpa using hneeds) hmismatch

theorem applySchemaChanges_of_not_agrees (sync : SyncTables) (removals : MoveRemovals)
    (hgroup : group.Sound) (h : Valid schema) (hnot : ¬ Agrees group schema)
    (hfits : NewNamesFit group schema) (hversion : group.version = some schemaVersion) :
    ∃ errors, applySchemaChanges sync group ((schemaFromGroup group).compare removals schema) =
        .error (.schemaMismatch errors) ∧ errors ≠ [] ∧ errors.Perm (mismatches group schema) := by
  obtain ⟨last, errors, hfold, hperm⟩ := foldlM_compare sync removals hgroup h
  rw [(nameError_eq_none h).mpr hfits] at hfold
  have hne : errors ≠ [] := by
    rintro rfl
    exact mismatches_ne_nil hgroup h hnot hperm.nil_eq.symm
  refine ⟨errors, ?_, hne, hperm⟩
  unfold applySchemaChanges applyNonMigrationChanges
  rw [hversion]
  dsimp only
  rw [hfold]
  dsimp only
  rw [if_neg hne]

/-- A file without a version has no class to differ in. -/
theorem agrees_of_unversioned (hgroup : group.Sound) (hversion : group.version = none) :
    Agrees group schema := by
  intro object hobject existing hfind
  obtain ⟨hname, table, htable, htableName, -⟩ := hgroup.classNamed_eq_some.mp hfind
  have hempty := hgroup.unversioned hversion table htable
  rw [htableName, objectTypeForTableName_tableName] at hempty
  exact absurd hempty hname

theorem applySchemaChanges_of_nameError (sync : SyncTables) (removals : MoveRemovals)
    (hgroup : group.Sound) (h : Valid schema) {e : UpdateError}
    (herror : nameError group schema = some e)
    (hversion : group.version = none ∨ group.version = some schemaVersion) :
    applySchemaChanges sync group ((schemaFromGroup group).compare removals schema) =
      .error e := by
  obtain ⟨last, errors, hfold, -⟩ := foldlM_compare sync removals hgroup h
  rw [herror] at hfold
  unfold applySchemaChanges
  rcases hversion with hversion | hversion
  · -- nothing needs a migration, so that the other applier throws too
    have hagrees : Agrees group schema := agrees_of_unversioned hgroup hversion
    have hnone : ∀ change ∈ (schemaFromGroup group).compare removals schema,
        change.needsMigration = false := by
      rw [compare_of_agrees removals hgroup h hagrees]
      exact fun change hchange => hagrees.needsMigration_compare hgroup h hchange
    rw [foldlM_applyNonMigrationChange hnone] at hfold
    rw [hversion]
    dsimp only
    unfold createInitialTables
    cases hinitial : ((schemaFromGroup group).compare removals schema).foldlM
        (createInitialTable sync) group with
    | error e' =>
      rw [hinitial] at hfold
      cases hfold
      rfl
    | ok file =>
      rw [hinitial] at hfold
      cases hfold
  · rw [hversion]
    dsimp only
    unfold applyNonMigrationChanges
    rw [hfold]

end ObjectStore

end W3Stats

import W3Stats.CreatePlayer
import W3Stats.GrowingMap
import W3Stats.SchemaOpens
import W3Stats.StepMachine

/-!
# Opening a file again and again

A file over all its opens, by whatever versions of the program as long as none raises the
schema version.  The classes of the file with their shapes are a partial map that only
grows: the first version that declares a class settles its shape, a version that
declares another is refused, and one that was opened once can always be opened again.
-/

namespace W3Stats

namespace ObjectStore

variable {sync : SyncTables} {removals : MoveRemovals} {group : Group} {schema : Schema}
  {object : ObjectSchema}

/-! ### The classes as a map -/

def Schema.dataModel (schema : Schema) : String → Option Shape := fun name =>
  (schema.classNamed name).map ObjectSchema.shape

def Group.dataModel (group : Group) : String → Option Shape := (schemaFromGroup group).dataModel

theorem agrees_iff_compatible (h : Valid schema) :
    Agrees group schema ↔ GrowingMap.Compatible group.dataModel schema.dataModel := by
  constructor
  · intro hagrees name shape shape' hgroup hschema
    obtain ⟨existing, hexisting, rfl⟩ := Option.map_eq_some_iff.mp hgroup
    obtain ⟨object, hobject, rfl⟩ := Option.map_eq_some_iff.mp hschema
    obtain ⟨hmem, rfl⟩ := h.classNamed_eq_some.mp hobject
    exact hagrees object hmem existing hexisting
  · intro hcompatible object hobject existing hexisting
    have hself : schema.classNamed object.name = some object :=
      h.classNamed_eq_some.mpr ⟨hobject, rfl⟩
    exact hcompatible object.name _ _ (by rw [Group.dataModel, Schema.dataModel, hexisting]; rfl)
      (by rw [Schema.dataModel, hself]; rfl)

/-- A class the schema does not have is read as before. -/
theorem classNamed_updated_of_not_mem (hgroup : group.Sound) (h : Valid schema) {name : String}
    (hname : schema.classNamed name = none) :
    ((schemaFromGroup (updated sync group schema)).classNamed name).map ObjectSchema.shape =
      ((schemaFromGroup group).classNamed name).map ObjectSchema.shape := by
  have hsound := updated_sound sync hgroup h
  have hkey : (updated sync group schema).getPrimaryKeyForObject name =
      group.getPrimaryKeyForObject name := by
    apply getPrimaryKey_updated_of_not_mem
    rintro object hobject rfl
    rw [h.classNamed_eq_some.mpr ⟨(mem_newClasses.mp hobject).1, rfl⟩] at hname
    cases hname
  cases hfind : (schemaFromGroup group).classNamed name with
  | some existing =>
    obtain ⟨hne, table, htable, htableName, rfl⟩ := hgroup.classNamed_eq_some.mp hfind
    have hsame : updatedTable schema table = table := by
      rw [updatedTable, htableName, objectTypeForTableName_tableName, hname]
    have hmem : updatedTable schema table ∈ (updated sync group schema).tables :=
      List.mem_append_left _ (List.mem_map_of_mem htable)
    rw [hsame] at hmem
    rw [hsound.classNamed_eq_some.mpr ⟨hne, table, hmem, htableName, rfl⟩]
    have hnodup := hgroup.names_nodup table htable
    simp only [Option.map_some, shape_ofTable hnodup, hkey]
  | none =>
    cases hupdated : (schemaFromGroup (updated sync group schema)).classNamed name with
    | none => rfl
    | some read =>
      obtain ⟨hne, table, htable, htableName, -⟩ := hsound.classNamed_eq_some.mp hupdated
      exfalso
      rcases List.mem_append.mp htable with htable | htable
      · obtain ⟨old, hold, rfl⟩ := List.mem_map.mp htable
        rw [updatedTable_name] at htableName
        exact (hgroup.classNamed_eq_none hne).mp hfind (List.mem_map.mpr ⟨old, hold, htableName⟩)
      · obtain ⟨object, hobject, rfl⟩ := List.mem_map.mp htable
        obtain rfl := tableName_injective htableName
        rw [h.classNamed_eq_some.mpr ⟨(mem_newClasses.mp hobject).1, rfl⟩] at hname
        cases hname

/-- An open adds the classes of the schema to the map. -/
theorem dataModel_updated (hgroup : group.Sound) (h : Valid schema)
    (hagrees : Agrees group schema) :
    (updated sync group schema).dataModel =
      GrowingMap.merge group.dataModel schema.dataModel := by
  funext name
  unfold GrowingMap.merge
  cases hfind : schema.classNamed name with
  | none =>
    have hnone : schema.dataModel name = none := by rw [Schema.dataModel, hfind]; rfl
    rw [hnone, Option.or_none]
    exact classNamed_updated_of_not_mem hgroup h hfind
  | some object =>
    obtain ⟨hobject, rfl⟩ := h.classNamed_eq_some.mp hfind
    have hsome : schema.dataModel object.name = some object.shape := by
      rw [Schema.dataModel, hfind]
      rfl
    obtain ⟨table, hholds⟩ := exists_holds sync hgroup h hagrees hobject
    have hread : (updated sync group schema).dataModel object.name = some object.shape := by
      rw [Group.dataModel, Schema.dataModel, hholds.classNamed (updated_sound sync hgroup h)
        (h.declared object hobject).name_ne, Option.map_some, hholds.shape]
    rw [hread, hsome]
    cases hold : group.dataModel object.name with
    | none => rfl
    | some shape =>
      have hsame := (agrees_iff_compatible h).mp hagrees object.name shape object.shape hold hsome
      rw [hsame]
      rfl

/-! ### One launch -/

/-- A launch of a version of the program, which opens the file with its schema: the file
    afterwards, and whether it was opened.  Refused, the write is cancelled. -/
def launch (sync : SyncTables) (removals : MoveRemovals) (group : Group) (schema : DeclaredSchema) :
    Group × Bool :=
  match updateSchema sync removals group schema.toSchema with
  | .ok (file, _) => (file, true)
  | .error _ => (group, false)

/-- A file that a launch can have left: it has the program's schema version, or none yet. -/
structure Group.Current (group : Group) : Prop where
  sound : group.Sound
  version : group.version = none ∨ group.version = some schemaVersion

/-- The core takes the names of the classes that the map does not have. -/
def NamesFitInto (model : String → Option Shape) (schema : Schema) : Prop :=
  ∀ object ∈ schema.types, model object.name = none → object.NamesFit

theorem newNamesFit_iff : NewNamesFit group schema ↔ NamesFitInto group.dataModel schema := by
  simp only [NewNamesFit, NamesFitInto, mem_newClasses, and_imp, Group.dataModel,
    Schema.dataModel, Option.map_eq_none_iff]

open Classical in
/-- What a launch does to the map. -/
noncomputable def declare (model : String → Option Shape) (schema : DeclaredSchema) :
    (String → Option Shape) × Bool :=
  if schema.validate = [] ∧ NamesFitInto model schema.toSchema then
    GrowingMap.extend model schema.dataModel
  else (model, false)

theorem declare_of_fits {model : String → Option Shape} {schema : DeclaredSchema}
    (hvalidate : schema.validate = []) (hfits : NamesFitInto model schema.toSchema) :
    declare model schema = GrowingMap.extend model schema.dataModel := if_pos ⟨hvalidate, hfits⟩

/-- A schema that is in the map is opened and changes nothing. -/
theorem declare_of_included {model : String → Option Shape} {schema : DeclaredSchema}
    (hvalidate : schema.validate = [])
    (hincluded : GrowingMap.Included schema.dataModel model) :
    declare model schema = (model, true) := by
  rw [declare_of_fits hvalidate, hincluded.extend_eq]
  intro object hobject hnone
  have hself := (schema.valid hvalidate).classNamed_eq_some.mpr ⟨hobject, rfl⟩
  have hsome : schema.dataModel object.name = some object.shape := by
    rw [Schema.dataModel, hself]
    rfl
  rw [hincluded object.name object.shape hsome] at hnone
  cases hnone

theorem Group.Current.empty : Group.empty.Current := ⟨Group.Sound.empty, .inl rfl⟩

theorem launch_spec (sync : SyncTables) (removals : MoveRemovals) {group : Group}
    (hgroup : group.Current) (schema : DeclaredSchema) :
    (launch sync removals group schema).1.Current ∧
      (launch sync removals group schema).1.dataModel = (declare group.dataModel schema).1 ∧
        (launch sync removals group schema).2 = (declare group.dataModel schema).2 := by
  by_cases hvalidate : schema.validate = []
  · have hvalid := schema.valid hvalidate
    cases herror : nameError group schema.toSchema with
    | some e =>
      have hrefused := updateSchema_of_nameError sync removals hgroup.sound hgroup.version
        hvalidate hvalid herror
      have hnot : ¬ NamesFitInto group.dataModel schema.toSchema := by
        rw [← newNamesFit_iff, ← nameError_eq_none hvalid, herror]
        exact Option.some_ne_none e
      rw [launch, hrefused, declare, if_neg fun hfits => hnot hfits.2]
      exact ⟨hgroup, rfl, rfl⟩
    | none =>
      have hfits := (nameError_eq_none hvalid).mp herror
      rw [declare_of_fits hvalidate (newNamesFit_iff.mp hfits), launch]
      by_cases hagrees : Agrees group schema.toSchema
      · obtain ⟨result, hresult, hopened⟩ := updateSchema_of_agrees sync removals
          hgroup.sound hgroup.version hvalidate hvalid hagrees hfits
        rw [hresult, GrowingMap.extend_of_compatible ((agrees_iff_compatible hvalid).mp hagrees)]
        exact ⟨⟨hopened.sound, .inr hopened.version⟩,
          dataModel_updated hgroup.sound hvalid hagrees, rfl⟩
      · obtain ⟨errors, hrefused, -⟩ := updateSchema_of_not_agrees sync removals
          hgroup.sound hgroup.version hvalidate hvalid hagrees hfits
        rw [hrefused, GrowingMap.extend_of_not_compatible fun hcompatible =>
          hagrees ((agrees_iff_compatible hvalid).mpr hcompatible)]
        exact ⟨hgroup, rfl, rfl⟩
  · have hrefused : updateSchema sync removals group schema.toSchema =
        .error (.schemaValidation schema.validate) := by
      unfold updateSchema
      rw [if_pos hvalidate]
    rw [launch, hrefused, declare, if_neg fun hfits => hvalidate hfits.1]
    exact ⟨hgroup, rfl, rfl⟩

/-! ### The program's schema -/

/-- A property of the program's classes as `objectStoreCopy` hands it on: the primary key is
    indexed. -/
def storedProperty (prop : ObjectCreate.Property ClassName) : Property where
  name := prop.name
  type :=
    match prop.type with
    | .int => ⟨.int, prop.isNullable, false⟩
    | .string => ⟨.string, prop.isNullable, false⟩
    | .object _ => ⟨.object, prop.isNullable, false⟩
  objectType :=
    match prop.type with
    | .object target => (dataModel target).name
    | _ => ""
  isPrimary := prop.isPrimary
  isIndexed := prop.isPrimary

def storedClass (className : ClassName) : ObjectSchema where
  name := (dataModel className).name
  persistedProperties := (dataModel className).persistedProperties.map storedProperty
  primaryKey :=
    match (dataModel className).persistedProperties.find? (·.isPrimary) with
    | some prop => prop.name
    | none => ""

theorem declared_storedClass (className : ClassName) : (storedClass className).Declared := by
  cases className <;> constructor <;> decide

theorem plainLists_storedClass (className : ClassName) : (storedClass className).PlainLists := by
  cases className <;> unfold ObjectSchema.PlainLists <;> decide

theorem forall_ofTypes {types : List ObjectSchema} {P : ObjectSchema → Prop}
    (h : ∀ object ∈ types, P object) : ∀ object ∈ (Schema.ofTypes types).types, P object :=
  fun object hobject => h object ((List.mem_insertionSort _).mp hobject)

/-- A schema with another `PlayerObject`. -/
def withPlayer (player : ObjectSchema) (hdeclared : player.Declared) (hlists : player.PlainLists) :
    DeclaredSchema where
  toSchema := Schema.ofTypes [player, storedClass .statsObject, storedClass .descObject]
  declared := by
    apply forall_ofTypes
    simp [hdeclared, declared_storedClass]
  plainLists := by
    apply forall_ofTypes
    simp [hlists, plainLists_storedClass]

def programSchema : DeclaredSchema :=
  withPlayer (storedClass .playerObject) (declared_storedClass .playerObject)
    (plainLists_storedClass .playerObject)

theorem validate_programSchema : programSchema.validate = [] := by decide

/-- The first launch makes the file. -/
theorem launch_programSchema (sync : SyncTables) (removals : MoveRemovals) :
    (launch sync removals .empty programSchema).2 = true := by
  have hvalid := programSchema.valid validate_programSchema
  have hfits : NewNamesFit .empty programSchema.toSchema :=
    (nameError_eq_none hvalid).mp (by decide)
  obtain ⟨result, hresult, -⟩ := updateSchema_of_agrees sync removals Group.Sound.empty (.inl rfl)
    validate_programSchema hvalid (agrees_of_unversioned Group.Sound.empty rfl) hfits
  rw [launch, hresult]

/-! ### A version without races -/

/-- The core as it is of use in examples: object IDs in one column, and `std::partition` that
    keeps the order. -/
def plainTables : SyncTables where
  objectIdColumns := [⟨objectIdColumnName, .scalar .int false, false⟩]
  objectIdColumns_name := by decide
  primaryKeyColumn type name nullable := ⟨name, .scalar type nullable, true⟩
  primaryKeyColumn_eq _ _ _ := rfl

def plainRemovals : MoveRemovals where
  move changes := changes.filter (!·.isRemoveProperty) ++ changes.filter (·.isRemoveProperty)
  move_append first rest h := by
    refine ⟨rest.filter (!·.isRemoveProperty) ++ rest.filter (·.isRemoveProperty), ?_, ?_⟩
    · have hkept : first.filter (!·.isRemoveProperty) = first :=
        List.filter_eq_self.mpr fun change hchange => by simp [h change hchange]
      have hnone : first.filter (·.isRemoveProperty) = [] :=
        List.filter_eq_nil_iff.mpr fun change hchange => by simp [h change hchange]
      rw [List.filter_append, List.filter_append, hkept, hnone, List.nil_append, List.append_assoc]
    · exact List.perm_append_comm.trans (List.filter_append_perm _ rest)

def racelessPlayer : ObjectSchema :=
  { storedClass .playerObject with
    persistedProperties :=
      (storedClass .playerObject).persistedProperties.filter fun prop => prop.name ≠ "race" }

def racelessSchema : DeclaredSchema :=
  withPlayer racelessPlayer (by constructor <;> decide)
    (by unfold ObjectSchema.PlainLists; decide)

def programFile : Group := (launch plainTables plainRemovals .empty programSchema).1

/-- The file the program makes is refused to the version without races. -/
theorem updateSchema_settles_raceless :
    ∃ errors, updateSchema plainTables plainRemovals programFile racelessSchema.toSchema =
        .error (.schemaMismatch errors) ∧
      errors ≠ [] ∧ errors.Perm (mismatches programFile racelessSchema.toSchema) := by
  have hfile : programFile.Current := (launch_spec _ _ Group.Current.empty programSchema).1
  have hrefused : (launch plainTables plainRemovals programFile racelessSchema).2 = false := by
    decide
  rcases updateSchema_settles plainTables plainRemovals racelessSchema hfile.sound with
    ⟨hvalidate, -⟩ | ⟨-, version, hversion, hne, -⟩ | ⟨-, -, -, e, herror, -⟩ |
      ⟨-, -, -, -, file, result, hresult, -⟩ | ⟨-, -, -, -, hmismatch⟩
  · exact absurd (by decide : racelessSchema.validate = []) hvalidate
  · rcases hfile.version with hnone | hcurrent
    · rw [hnone] at hversion
      cases hversion
    · exact absurd (Option.some.inj (hversion.symm.trans hcurrent)) hne
  · have hnone : nameError programFile racelessSchema.toSchema = none := by decide
    rw [hnone] at herror
    cases herror
  · rw [launch, hresult] at hrefused
    cases hrefused
  · exact hmismatch

/-! ### All launches -/

/-- **The file is the map.**  Over any launches, a launch is refused exactly where the map
    refuses it, and the classes of the file are those of the map. -/
theorem launches_refine (sync : SyncTables) (removals : MoveRemovals) {group : Group}
    (hgroup : group.Current) (schemas : List DeclaredSchema) :
    StepMachine.Agree (τ := Empty)
      (fun a b => (a.1.Current ∧ a.1.dataModel = b.1) ∧ a.2 = b.2)
      (StepMachine.trace (fun group schema => .ok (launch sync removals group schema))
        group schemas)
      (StepMachine.trace (fun model schema => .ok (declare model schema))
        group.dataModel schemas) := by
  apply StepMachine.trace_agree (P := fun _ => True)
    (R := fun (group : Group) model => group.Current ∧ group.dataModel = model)
  · rintro group model schema ⟨hgroup, rfl⟩ -
    obtain ⟨hcurrent, hmodel, hanswer⟩ := launch_spec sync removals hgroup schema
    exact ⟨⟨hcurrent, hmodel⟩, hanswer⟩
  · exact ⟨hgroup, rfl⟩
  · exact fun _ _ => trivial

theorem launches_refine_raceless :
    StepMachine.Agree (τ := Empty)
      (fun a b => (a.1.Current ∧ a.1.dataModel = b.1) ∧ a.2 = b.2)
      (StepMachine.trace
        (fun group schema => .ok (launch plainTables plainRemovals group schema))
        Group.empty [programSchema, racelessSchema, programSchema])
      (StepMachine.trace (fun model schema => .ok (declare model schema))
        Group.empty.dataModel [programSchema, racelessSchema, programSchema]) :=
  launches_refine plainTables plainRemovals Group.Current.empty
    [programSchema, racelessSchema, programSchema]

/-- The file after some launches. -/
def launches (sync : SyncTables) (removals : MoveRemovals) (group : Group)
    (schemas : List DeclaredSchema) : Group :=
  schemas.foldl (fun group schema => (launch sync removals group schema).1) group

theorem included_declare (model : String → Option Shape) (schema : DeclaredSchema) :
    GrowingMap.Included model (declare model schema).1 := by
  unfold declare
  split
  · exact GrowingMap.included_extend model schema.dataModel
  · exact GrowingMap.Included.refl model

theorem launches_current (sync : SyncTables) (removals : MoveRemovals) (hgroup : group.Current)
    (schemas : List DeclaredSchema) :
    (launches sync removals group schemas).Current ∧
      GrowingMap.Included group.dataModel (launches sync removals group schemas).dataModel := by
  induction schemas generalizing group with
  | nil => exact ⟨hgroup, GrowingMap.Included.refl _⟩
  | cons schema schemas ih =>
    obtain ⟨hcurrent, hmodel, -⟩ := launch_spec sync removals hgroup schema
    obtain ⟨hlast, hincluded⟩ := ih hcurrent
    refine ⟨hlast, GrowingMap.Included.trans ?_ hincluded⟩
    rw [hmodel]
    exact included_declare group.dataModel schema

/-- A file that was opened has the classes of the schema. -/
theorem included_of_launch (hgroup : group.Current) {schema : DeclaredSchema}
    (h : (launch sync removals group schema).2 = true) :
    schema.validate = [] ∧
      GrowingMap.Included schema.dataModel (launch sync removals group schema).1.dataModel := by
  obtain ⟨-, hmodel, hanswer⟩ := launch_spec sync removals hgroup schema
  rw [h] at hanswer
  unfold declare at hanswer hmodel
  by_cases hfits : schema.validate = [] ∧ NamesFitInto group.dataModel schema.toSchema
  · rw [if_pos hfits] at hanswer hmodel
    refine ⟨hfits.1, ?_⟩
    rw [hmodel]
    exact GrowingMap.included_of_extended hanswer.symm
  · rw [if_neg hfits] at hanswer
    cases hanswer

/-- **Opened once, opened always.**  Whatever is launched before and after, a version that
    was opened is opened again. -/
theorem opens_again (sync : SyncTables) (removals : MoveRemovals) {group : Group}
    (hgroup : group.Current) (before after : List DeclaredSchema) {schema : DeclaredSchema}
    (h : (launch sync removals (launches sync removals group before) schema).2 = true) :
    (launch sync removals (launches sync removals group (before ++ schema :: after)) schema).2 =
      true := by
  have hbefore := (launches_current sync removals hgroup before).1
  obtain ⟨hvalidate, hthen⟩ := included_of_launch hbefore h
  have hnext := (launch_spec sync removals hbefore schema).1
  obtain ⟨hlast, hkept⟩ := launches_current sync removals hnext after
  have hrun : launches sync removals group (before ++ schema :: after) =
      launches sync removals
        (launch sync removals (launches sync removals group before) schema).1 after := by
    simp only [launches, List.foldl_append, List.foldl_cons]
  rw [hrun]
  obtain ⟨-, -, hanswer⟩ := launch_spec sync removals hlast schema
  rw [hanswer, declare_of_included hvalidate (hthen.trans hkept)]

/-- The program opens the file it made, also after the version without races tried. -/
theorem opens_again_raceless :
    (launch plainTables plainRemovals
      (launches plainTables plainRemovals .empty [programSchema, racelessSchema])
      programSchema).2 = true :=
  opens_again plainTables plainRemovals Group.Current.empty [] [racelessSchema]
    (launch_programSchema plainTables plainRemovals)

/-- A list for a primary key would be opened once only. -/
example :
    let list : Property :=
      { name := "xs", type := ⟨.int, false, true⟩, isPrimary := true, isIndexed := true }
    let schema := Schema.ofTypes [⟨"Log", [list], [], "xs"⟩]
    (match updateSchema plainTables plainRemovals .empty schema with
      | .ok (file, _) => (updateSchema plainTables plainRemovals file schema).isOk
      | .error _ => true) = false := by
  decide

end ObjectStore

end W3Stats

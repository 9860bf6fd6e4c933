import Mathlib.Data.List.Sort
import Mathlib.Data.String.Basic
import W3Stats.LowerBound
import W3Stats.SortedZip

/-!
# Schemas, their validation and their comparison

A schema is a list of classes in the order of their names, a class a list of
properties.  A schema is declared by the program or read from a file;
`Schema.compare` lists what has to be done to a file with the one to bring it to
the other.
-/

namespace W3Stats

namespace ObjectStore

/-! ### Names -/

/-- The bytes of a name as `char`s, which are signed. -/
def chars (name : String) : List Int8 :=
  (name.toList.flatMap String.utf8EncodeChar).map UInt8.toInt8

/-- `operator<` of `StringData`, which compares `char`s where `std::string` compares bytes. -/
def StringData.less (lft rgt : String) : Bool := decide (chars lft < chars rgt)

def IsAscii (name : String) : Prop := ∀ c ∈ name.toList, c.toNat < 128

instance (name : String) : Decidable (IsAscii name) :=
  List.decidableBAll (fun c : Char => c.toNat < 128) name.toList

section Ascii

theorem flatMap_utf8EncodeChar_of_ascii {l : List Char} (h : ∀ c ∈ l, c.toNat < 128) :
    (l.flatMap String.utf8EncodeChar).map UInt8.toInt8 = l.map fun c => Int8.ofNat c.toNat := by
  induction l with
  | nil => rfl
  | cons c l ih =>
    have hc : c.toNat < 128 := h c List.mem_cons_self
    have hle : c.val.toNat ≤ 127 := Nat.le_of_lt_succ hc
    have hsize : c.utf8Size = 1 := if_pos (UInt32.le_iff_toNat_le.mpr hle)
    rw [List.flatMap_cons, List.map_append, ih fun d hd => h d (List.mem_cons_of_mem _ hd),
      String.utf8EncodeChar_eq_singleton hsize]
    rfl

theorem ofNat_lt_ofNat_iff {m n : Nat} (hm : m < 128) (hn : n < 128) :
    Int8.ofNat m < Int8.ofNat n ↔ m < n := by
  rw [Int8.lt_iff_toInt_lt, Int8.toInt_ofNat_of_lt hm, Int8.toInt_ofNat_of_lt hn, Int.ofNat_lt]

theorem map_ofNat_lt_iff {l m : List Char} (hl : ∀ c ∈ l, c.toNat < 128)
    (hm : ∀ c ∈ m, c.toNat < 128) :
    (l.map fun c => Int8.ofNat c.toNat) < (m.map fun c => Int8.ofNat c.toNat) ↔ l < m := by
  induction l generalizing m with
  | nil => cases m <;> simp
  | cons c l ih =>
    cases m with
    | nil => simp
    | cons d m =>
      have hc := hl c List.mem_cons_self
      have hd := hm d List.mem_cons_self
      have hlt : Int8.ofNat c.toNat < Int8.ofNat d.toNat ↔ c < d := ofNat_lt_ofNat_iff hc hd
      have heq : Int8.ofNat c.toNat = Int8.ofNat d.toNat ↔ c = d := by
        constructor
        · intro h
          have h' := congrArg Int8.toInt h
          rw [Int8.toInt_ofNat_of_lt hc, Int8.toInt_ofNat_of_lt hd] at h'
          exact Char.toNat_inj.mp (Int.ofNat_inj.mp h')
        · rintro rfl
          rfl
      rw [List.map_cons, List.map_cons, List.cons_lt_cons_iff, List.cons_lt_cons_iff, hlt, heq,
        ih (fun e he => hl e (List.mem_cons_of_mem _ he))
          fun e he => hm e (List.mem_cons_of_mem _ he)]

/-- Without other characters the two orders are one. -/
theorem StringData.less_of_ascii {lft rgt : String} (hlft : IsAscii lft) (hrgt : IsAscii rgt) :
    StringData.less lft rgt = decide (lft < rgt) := by
  unfold StringData.less chars
  rw [flatMap_utf8EncodeChar_of_ascii hlft, flatMap_utf8EncodeChar_of_ascii hrgt]
  exact decide_eq_decide.mpr ((map_ofNat_lt_iff hlft hrgt).trans String.lt_iff.symm)

end Ascii

/-! ### Properties -/

/-- `PropertyType` without its flags. -/
inductive BaseType where
  | int
  | bool
  | string
  | data
  | date
  | float
  | double
  | object
  | linkingObjects
  | any
deriving DecidableEq, Repr

@[ext] structure PropertyType where
  base : BaseType
  nullable : Bool := false
  array : Bool := false
deriving DecidableEq, Repr

/-- `tableColumn` is `none` where the source has `npos`. -/
structure Property where
  name : String
  type : PropertyType
  objectType : String := ""
  linkOriginPropertyName : String := ""
  isPrimary : Bool := false
  isIndexed : Bool := false
  tableColumn : Option Nat := none
deriving DecidableEq, Repr

namespace Property

def requiresIndex (prop : Property) : Bool := prop.isPrimary || prop.isIndexed

def typeIsIndexable (prop : Property) : Bool :=
  match prop.type.base with
  | .int | .bool | .date | .string => true
  | _ => false

def typeIsNullable (prop : Property) : Bool :=
  !(prop.type.array && prop.type.base == .object) && prop.type.base != .linkingObjects

/-- `operator==`, which does not check the table column. -/
def same (lft rgt : Property) : Bool :=
  lft.type == rgt.type && lft.isPrimary == rgt.isPrimary &&
    lft.requiresIndex == rgt.requiresIndex && lft.name == rgt.name &&
    lft.objectType == rgt.objectType && lft.linkOriginPropertyName == rgt.linkOriginPropertyName

end Property

def BaseType.text : BaseType → String
  | .string => "string"
  | .int => "int"
  | .bool => "bool"
  | .date => "date"
  | .data => "data"
  | .double => "double"
  | .float => "float"
  | .object => "object"
  | .any => "any"
  | .linkingObjects => "linking objects"

def stringForPropertyType (type : PropertyType) : String :=
  if type.array then
    if type.base = .linkingObjects then "linking objects" else "array"
  else type.base.text

def Property.typeString (prop : Property) : String :=
  if prop.type.array then
    match prop.type.base with
    | .object => s!"array<{prop.objectType}>"
    | .linkingObjects => s!"linking objects<{prop.objectType}>"
    | base => s!"array<{base.text}>"
  else
    match prop.type.base with
    | .object => s!"<{prop.objectType}>"
    | .linkingObjects => s!"linking objects<{prop.objectType}>"
    | base => base.text

/-! ### Classes and schemas -/

structure ObjectSchema where
  name : String
  persistedProperties : List Property
  computedProperties : List Property := []
  primaryKey : String := ""
deriving DecidableEq, Repr

namespace ObjectSchema

def propertyForName (object : ObjectSchema) (name : String) : Option Property :=
  (object.persistedProperties.find? fun prop => decide (prop.name = name)).or
    (object.computedProperties.find? fun prop => decide (prop.name = name))

def primaryKeyProperty (object : ObjectSchema) : Option Property :=
  object.propertyForName object.primaryKey

def propertyIsComputed (object : ObjectSchema) (prop : Property) : Bool :=
  object.computedProperties.any fun computed => computed.same prop

end ObjectSchema

/-- `std::sort` in the constructor compares the classes by name. -/
instance : IsPreorder ObjectSchema fun lft rgt => lft.name ≤ rgt.name where
  refl object := le_refl object.name
  trans _ _ _ hab hbc := le_trans hab hbc

instance : Std.Total fun lft rgt : ObjectSchema => lft.name ≤ rgt.name where
  total lft rgt := le_total lft.name rgt.name

/-- The classes of a schema are kept in the order of their names. -/
@[ext] structure Schema where
  types : List ObjectSchema
  sorted : types.Pairwise fun lft rgt => lft.name ≤ rgt.name

namespace Schema

def ofTypes (types : List ObjectSchema) : Schema where
  types := types.insertionSort fun lft rgt => lft.name ≤ rgt.name
  sorted := List.pairwise_insertionSort _ types

/-- The search by `StringData`s in classes that are sorted by `std::string`s, which may miss
    one that is there. -/
def find (schema : Schema) (name : String) : Option ObjectSchema :=
  LowerBound.find? (fun object => StringData.less object.name name)
    (fun object => decide (object.name = name)) schema.types

/-- The class of a name, which nothing misses. -/
def classNamed (schema : Schema) (name : String) : Option ObjectSchema :=
  schema.types.find? fun object => decide (object.name = name)

theorem find_eq_classNamed {schema : Schema} {name : String} (hname : IsAscii name)
    (h : ∀ object ∈ schema.types, IsAscii object.name) :
    schema.find name = schema.classNamed name :=
  LowerBound.find?_eq_find? schema.sorted fun object hobject =>
    StringData.less_of_ascii (h object hobject) hname

end Schema

/-! ### Validation -/

/-- The checks of the object type of a link and of the origin of a linking objects
    property. -/
def validateLink (schema : Schema) (objectName : String) (prop : Property) : List String :=
  let path := s!"'{objectName}.{prop.name}'"
  let origin := s!"'{prop.objectType}.{prop.linkOriginPropertyName}'"
  let declared := s!"Property {origin} declared as origin of linking objects property {path}"
  let typeName := stringForPropertyType prop.type
  match schema.find prop.objectType with
  | none =>
    [s!"Property {path} of type '{typeName}' has unknown object type '{prop.objectType}'"]
  | some target =>
    if prop.type.base ≠ .linkingObjects then []
    else
      match target.propertyForName prop.linkOriginPropertyName with
      | none => [declared ++ " does not exist"]
      | some originProperty =>
        if originProperty.type.base ≠ .object then [declared ++ " is not a link"]
        else if originProperty.objectType ≠ objectName then
          [declared ++ s!" links to type '{originProperty.objectType}'"]
        else []

/-- The primary key, met before this property or with it, and the exceptions. -/
def validateProperty (schema : Schema) (objectName : String) (primary : Option Property)
    (prop : Property) : Option Property × List String :=
  let path := s!"'{objectName}.{prop.name}'"
  let typeName := stringForPropertyType prop.type
  let linkingObjects := prop.type.base = .linkingObjects
  let array :=
    if linkingObjects ∧ !prop.type.array then
      [s!"Linking Objects property {path} must be an array."]
    else []
  let nullability :=
    if prop.type.nullable ∧ !prop.typeIsNullable then
      [s!"Property {path} of type '{typeName}' cannot be nullable."]
    else if prop.type.base = .object ∧ !prop.type.nullable ∧ !prop.type.array then
      [s!"Property {path} of type 'object' must be nullable."]
    else []
  let primaryKey :=
    if prop.isPrimary then
      (if prop.type.base ≠ .int ∧ prop.type.base ≠ .string then
        [s!"Property {path} of type '{typeName}' cannot be made the primary key."]
      else []) ++
      match primary with
      | some other =>
        [s!"Properties '{prop.name}' and '{other.name}' are both marked as the primary key of " ++
          s!"'{objectName}'."]
      | none => []
    else []
  let indexable :=
    if prop.isIndexed ∧ !prop.typeIsIndexable then
      [s!"Property {path} of type '{typeName}' cannot be indexed."]
    else []
  let originName :=
    if ¬linkingObjects ∧ prop.linkOriginPropertyName ≠ "" then
      [s!"Property {path} of type '{typeName}' cannot have an origin property name."]
    else if linkingObjects ∧ prop.linkOriginPropertyName = "" then
      [s!"Property {path} of type '{typeName}' must have an origin property name."]
    else []
  let link :=
    if prop.type.base ≠ .object ∧ ¬linkingObjects then
      if prop.objectType ≠ "" then
        [s!"Property {path} of type '{prop.typeString}' cannot have an object type."]
      else []
    else validateLink schema objectName prop
  (if prop.isPrimary then some prop else primary,
    array ++ nullability ++ primaryKey ++ indexable ++ originName ++ link)

def validateProperties (schema : Schema) (objectName : String) :
    Option Property → List Property → Option Property × List String
  | primary, [] => (primary, [])
  | primary, prop :: props =>
    let checked := validateProperty schema objectName primary prop
    let rest := validateProperties schema objectName checked.1 props
    (rest.1, checked.2 ++ rest.2)

def ObjectSchema.validate (schema : Schema) (object : ObjectSchema) : List String :=
  let checked := validateProperties schema object.name none
    (object.persistedProperties ++ object.computedProperties)
  checked.2 ++
    if object.primaryKey ≠ "" ∧ checked.1 = none ∧ object.primaryKeyProperty = none then
      [s!"Specified primary key '{object.name}.{object.primaryKey}' does not exist."]
    else []

/-- Each class whose name the next one has too. -/
def findDuplicates : List ObjectSchema → List String
  | lft :: rgt :: objects =>
    (if lft.name = rgt.name then [s!"Type '{lft.name}' appears more than once in the schema."]
      else []) ++ findDuplicates (rgt :: objects)
  | _ => []

def Schema.validate (schema : Schema) : List String :=
  findDuplicates schema.types ++ schema.types.flatMap (ObjectSchema.validate schema)

/-- The class that is there is missed. -/
example :
    let a : ObjectSchema := ⟨"A", [{ name := "x", type := ⟨.int, false, false⟩ }], [], ""⟩
    let link : Property := { name := "a", type := ⟨.object, true, false⟩, objectType := "A" }
    (Schema.ofTypes [a, ⟨"É", [link], [], ""⟩]).validate =
      ["Property 'É.a' of type 'object' has unknown object type 'A'"] := by
  decide

/-! ### Comparison -/

inductive SchemaChange where
  | addTable (object : ObjectSchema)
  | addInitialProperties (object : ObjectSchema)
  | addProperty (object : ObjectSchema) (property : Property)
  | removeProperty (object : ObjectSchema) (property : Property)
  | changePropertyType (object : ObjectSchema) (oldProperty newProperty : Property)
  | makePropertyNullable (object : ObjectSchema) (property : Property)
  | makePropertyRequired (object : ObjectSchema) (property : Property)
  | addIndex (object : ObjectSchema) (property : Property)
  | removeIndex (object : ObjectSchema) (property : Property)
  | changePrimaryKey (object : ObjectSchema) (property : Option Property)
deriving DecidableEq, Repr

def SchemaChange.isRemoveProperty : SchemaChange → Bool
  | .removeProperty _ _ => true
  | _ => false

/-- The changes for one property of the existing class. -/
def compareProperty (existing target : ObjectSchema) (current : Property) : List SchemaChange :=
  match target.propertyForName current.name with
  | none => [.removeProperty existing current]
  | some prop =>
    if target.propertyIsComputed prop then [.removeProperty existing current]
    else if current.type.base ≠ prop.type.base ∨ current.objectType ≠ prop.objectType ∨
        current.type.array ≠ prop.type.array then
      [.changePropertyType existing current prop]
    else
      (if current.type.nullable ≠ prop.type.nullable then
        if current.type.nullable then [.makePropertyRequired existing current]
        else [.makePropertyNullable existing current]
      else []) ++
      (if prop.requiresIndex then
        if current.isIndexed then [] else [.addIndex existing current]
      else if current.requiresIndex then [.removeIndex existing current] else [])

/-- What `compare` of two classes appends to the changes. -/
def compareColumns (existing target : ObjectSchema) : List SchemaChange :=
  existing.persistedProperties.flatMap (compareProperty existing target) ++
  (if existing.primaryKey ≠ target.primaryKey then
    [.changePrimaryKey existing target.primaryKeyProperty] else []) ++
  (target.persistedProperties.filter fun prop => (existing.propertyForName prop.name).isNone).map
    (.addProperty existing)

/-- `std::partition` and `std::sort`, which move the removals to the end.  In which order
    they leave the rest is up to the implementation; what stands before the first removal
    stays in its place. -/
structure MoveRemovals where
  move : List SchemaChange → List SchemaChange
  move_append : ∀ l r, (∀ change ∈ l, change.isRemoveProperty = false) →
    ∃ r', move (l ++ r) = l ++ r' ∧ r'.Perm r

namespace Schema

def zipMatching (target existing : Schema) : List (Option ObjectSchema × Option ObjectSchema) :=
  SortedZip.zipMatching ObjectSchema.name ObjectSchema.name target.types existing.types

def missingTable : Option ObjectSchema × Option ObjectSchema → List SchemaChange
  | (some target, none) => [.addTable target]
  | _ => []

def compareTables (removals : MoveRemovals) (changes : List SchemaChange) :
    Option ObjectSchema × Option ObjectSchema → List SchemaChange
  | (some target, some existing) => removals.move (changes ++ compareColumns existing target)
  | (some target, none) => changes ++ [.addInitialProperties target]
  | (none, _) => changes

/-- The changes that bring `existing` to `target`: the missing tables first, then the
    columns of each. -/
def compare (removals : MoveRemovals) (existing target : Schema) : List SchemaChange :=
  let matching := zipMatching target existing
  matching.foldl (compareTables removals) (matching.flatMap missingTable)

end Schema

end ObjectStore

end W3Stats

import Mathlib.Data.Fintype.Card
import Mathlib.Logic.Relation
import W3Stats.SwiftRuntime

/-!
# Adding an object to a Realm

`RLMAddObjectToRealm` and the `Object::create` it calls, for any schema of classes
with integers, strings and links.  The objects outside the Realm are a graph, with
sharing and cycles; each one that is added remembers its row, and a link to an
object that has one is a link to that row.  So the graph that the root reaches is
copied into the tables: one new row for each object, each row with the values of
its object, and nothing else changes.
-/

namespace W3Stats

namespace ObjectCreate

variable {κ : Type} [DecidableEq κ] {n : Nat}

/-! ### Schemas -/

inductive PropertyType (κ : Type) where
  | int
  | string
  | object (objectType : κ)
deriving DecidableEq, Repr

structure Property (κ : Type) where
  name : String
  type : PropertyType κ
  isPrimary : Bool
  isNullable : Bool
deriving DecidableEq, Repr

structure ObjectSchema (κ : Type) where
  name : String
  persistedProperties : List (Property κ)
deriving DecidableEq, Repr

abbrev Schema (κ : Type) := κ → ObjectSchema κ

/-- The position of the primary key, if there is one. -/
def ObjectSchema.primaryKeyProperty (schema : ObjectSchema κ) : Option Nat :=
  schema.persistedProperties.findIdx? (·.isPrimary)

/-! ### Objects outside the Realm and rows in it -/

/-- The value of a property of an object outside the Realm. -/
inductive Ivar (n : Nat) where
  | null
  | int (value : SwiftInt)
  | string (value : String)
  | object (ref : Fin n)
deriving DecidableEq, Repr

structure Unmanaged (κ : Type) (n : Nat) where
  type : κ
  ivars : List (Ivar n)

inductive Cell where
  | null
  | int (value : SwiftInt)
  | string (value : String)
  | link (row : Nat)
deriving DecidableEq, Repr

/-- What `add_empty_row` puts into a column. -/
def Property.emptyCell (prop : Property κ) : Cell :=
  if prop.isNullable then .null
  else
    match prop.type with
    | .int => .int 0
    | .string => .string ""
    | .object _ => .null

/-- The tables, and the row of each object that was added: its `_realm` and `_row`. -/
structure Adding (κ : Type) (n : Nat) where
  tables : κ → List (List Cell)
  managed : Fin n → Option Nat

namespace Adding

def addEmptyRow (schema : Schema κ) (type : κ) (s : Adding κ n) : Adding κ n × Nat :=
  let row := (schema type).persistedProperties.map Property.emptyCell
  ({ s with tables := Function.update s.tables type (s.tables type ++ [row]) },
    (s.tables type).length)

def set (type : κ) (row col : Nat) (cell : Cell) (s : Adding κ n) : Adding κ n :=
  let rows := (s.tables type).modify row fun cells => cells.set col cell
  { s with tables := Function.update s.tables type rows }

/-- `*out_row = object.row()`. -/
def manage (ref : Fin n) (row : Nat) (s : Adding κ n) : Adding κ n :=
  { s with managed := Function.update s.managed ref (some row) }

end Adding

inductive CreateError where
  | existingPrimaryKey (objectType : String) (primaryValue : Cell)
  | invalidValue (objectType property : String)
  | outOfFuel
deriving DecidableEq, Repr

/-! ### `Object::create` -/

section Create

variable (schema : Schema κ) (objects : Fin n → Unmanaged κ n)

/-- What `RLMValidateValueForProperty` takes; nil gets there as `NSNull`.  It lets every link
    through, so that an object with a link to one of another class is not followed further
    here: such objects do not conform. -/
def validateValue (value : Ivar n) (prop : Property κ) : Bool :=
  match value, prop.type with
  | .null, _ => prop.isNullable
  | .int _, .int => true
  | .string _, .string => true
  | .object ref, .object objectType => (objects ref).type = objectType
  | _, _ => false

def valueForProperty (ref : Fin n) (prop : Property κ) (propIndex : Nat) :
    Except CreateError (Ivar n) :=
  let value := (objects ref).ivars.getD propIndex .null
  if validateValue objects value prop then .ok value
  else .error (.invalidValue (schema (objects ref).type).name prop.name)

/-- The cell of a value that is not a link. -/
def Ivar.primaryCell : Ivar n → Cell
  | .int value => .int value
  | .string value => .string value
  | _ => .null

/-- The row of the primary key, or a new one. -/
def rowFor (tryUpdate : Bool) (ref : Fin n) (s : Adding κ n) :
    Except CreateError (Adding κ n × Nat) :=
  let type := (objects ref).type
  match (schema type).primaryKeyProperty with
  | none => .ok (s.addEmptyRow schema type)
  | some col =>
      match (schema type).persistedProperties[col]? with
      | none => .ok (s.addEmptyRow schema type)
      | some prop => do
          let value ← valueForProperty schema objects ref prop col
          match (s.tables type).findIdx? fun cells => cells[col]? = some value.primaryCell with
          | none =>
              let (s, row) := s.addEmptyRow schema type
              return (s.set type row col value.primaryCell, row)
          | some row =>
              if tryUpdate then return (s, row)
              else .error (.existingPrimaryKey (schema type).name value.primaryCell)

/-- `unbox<RowExpr>`: the row of an object that has one, or the row it gets. -/
def unboxRow (add : Fin n → Adding κ n → Except CreateError (Adding κ n × Nat)) (ref : Fin n)
    (s : Adding κ n) : Except CreateError (Adding κ n × Nat) :=
  match s.managed ref with
  | some row => .ok (s, row)
  | none => add ref s

def setPropertyValue (add : Fin n → Adding κ n → Except CreateError (Adding κ n × Nat))
    (type : κ) (row col : Nat) (value : Ivar n) (s : Adding κ n) :
    Except CreateError (Adding κ n) :=
  match value with
  | .null => .ok (s.set type row col .null)
  | .int value => .ok (s.set type row col (.int value))
  | .string value => .ok (s.set type row col (.string value))
  | .object ref => do
      let (s, link) ← unboxRow add ref s
      return s.set type row col (.link link)

/-- The loop over the persisted properties, from the one at `col` on. -/
def populate (add : Fin n → Adding κ n → Except CreateError (Adding κ n × Nat)) (ref : Fin n)
    (row : Nat) : List (Property κ) → Nat → Adding κ n → Except CreateError (Adding κ n)
  | [], _, s => .ok s
  | prop :: props, col, s =>
      if prop.isPrimary then populate add ref row props (col + 1) s
      else do
        let value ← valueForProperty schema objects ref prop col
        let s ← setPropertyValue add (objects ref).type row col value s
        populate add ref row props (col + 1) s

/-- `RLMAddObjectToRealm` of an object that is not managed.  The fuel bounds the depth
    of the recursion through links. -/
def add (tryUpdate : Bool) : Nat → Fin n → Adding κ n → Except CreateError (Adding κ n × Nat)
  | 0, _, _ => .error .outOfFuel
  | fuel + 1, ref, s => do
      let (s, row) ← rowFor schema objects tryUpdate ref s
      let s ← populate schema objects (add tryUpdate fuel) ref row
        (schema (objects ref).type).persistedProperties 0 (s.manage ref row)
      return (s, row)

/-- No more than `n` objects are ever being added at once. -/
def addObjectToRealm (tryUpdate : Bool) (ref : Fin n) (s : Adding κ n) :
    Except CreateError (Adding κ n × Nat) :=
  add schema objects tryUpdate n ref s

end Create

/-! ### One call and one property of its loop -/

section Loop

variable {schema : Schema κ} {objects : Fin n → Unmanaged κ n}
  {add : Fin n → Adding κ n → Except CreateError (Adding κ n × Nat)} {ref : Fin n} {row col : Nat}
  {prop : Property κ} {props : List (Property κ)} {s s' : Adding κ n}

theorem add_of_rowFor {tryUpdate : Bool}
    (h : rowFor schema objects tryUpdate ref s = .ok (s', row)) (fuel : Nat) :
    ObjectCreate.add schema objects tryUpdate (fuel + 1) ref s =
      (populate schema objects (ObjectCreate.add schema objects tryUpdate fuel) ref row
        (schema (objects ref).type).persistedProperties 0 (s'.manage ref row)).map
        fun s'' => (s'', row) := by
  simp only [ObjectCreate.add, h]
  rfl

theorem add_of_rowFor_error {tryUpdate : Bool} {e : CreateError}
    (h : rowFor schema objects tryUpdate ref s = .error e) (fuel : Nat) :
    ObjectCreate.add schema objects tryUpdate (fuel + 1) ref s = .error e := by
  simp only [ObjectCreate.add, h]
  rfl

/-- An object of a class without a primary key gets a new row. -/
theorem rowFor_unkeyed (h : (schema (objects ref).type).primaryKeyProperty = none)
    (tryUpdate : Bool) :
    rowFor schema objects tryUpdate ref s = .ok (s.addEmptyRow schema (objects ref).type) := by
  simp only [rowFor, h]

theorem populate_primary (hprimary : prop.isPrimary = true) :
    populate schema objects add ref row (prop :: props) col s =
      populate schema objects add ref row props (col + 1) s := by
  simp only [populate, if_pos hprimary]

theorem populate_value (hprimary : prop.isPrimary = false)
    (hvalid : validateValue objects ((objects ref).ivars.getD col .null) prop = true)
    (hset : setPropertyValue add (objects ref).type row col ((objects ref).ivars.getD col .null) s =
      .ok s') :
    populate schema objects add ref row (prop :: props) col s =
      populate schema objects add ref row props (col + 1) s' := by
  have hvalue : valueForProperty schema objects ref prop col =
      .ok ((objects ref).ivars.getD col .null) := if_pos hvalid
  have hnot : ¬ prop.isPrimary = true := by simp [hprimary]
  simp only [populate, if_neg hnot, hvalue]
  show (setPropertyValue add (objects ref).type row col ((objects ref).ivars.getD col .null) s >>=
    fun s => populate schema objects add ref row props (col + 1) s) = _
  rw [hset]
  rfl

end Loop

end ObjectCreate

end W3Stats

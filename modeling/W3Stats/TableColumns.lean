import W3Stats.CopiedObjects
import W3Stats.StepMachine

/-!
# Rows by their columns

`Object::create` writes a property to its `table_column`, and a table may have its columns
in any order and columns of no property between them.  Read through the columns of the
properties, such tables are tables with the properties in their order, and adding an
object to the ones is adding it to the others.
-/

namespace W3Stats

namespace ObjectCreate

open StepMachine

variable {κ : Type} {n : Nat} {schema : Schema κ}

/-- Where the tables have the properties of the classes. -/
structure Columns (κ : Type) where
  /-- `table_column` of the property at a position -/
  column : κ → Nat → Nat
  /-- what `add_empty_row` puts into all columns of the table -/
  newRow : κ → Nat → List Cell

/-- No two properties of a class are in one column, and a new row has the empty value of a
    property in its column. -/
structure Columns.Serves (columns : Columns κ) (schema : Schema κ) : Prop where
  column_injective : ∀ type (col col' : Nat), col < (schema type).persistedProperties.length →
    col' < (schema type).persistedProperties.length →
      columns.column type col = columns.column type col' → col = col'
  newRow_column : ∀ type row (col : Nat) (prop : Property κ),
    (schema type).persistedProperties[col]? = some prop →
      (columns.newRow type row)[columns.column type col]? = some prop.emptyCell

namespace Columns

variable (columns : Columns κ)

/-! ### `Object::create` at the columns -/

section Create

variable [DecidableEq κ]

def addEmptyRow (type : κ) (s : Adding κ n) : Adding κ n × Nat :=
  let row := (s.tables type).length
  ({ s with tables := Function.update s.tables type (s.tables type ++ [columns.newRow type row]) },
    row)

variable (schema : Schema κ) (objects : Fin n → Unmanaged κ n)

def rowFor (tryUpdate : Bool) (ref : Fin n) (s : Adding κ n) :
    Except CreateError (Adding κ n × Nat) :=
  let type := (objects ref).type
  match (schema type).primaryKeyProperty with
  | none => .ok (columns.addEmptyRow type s)
  | some col =>
      match (schema type).persistedProperties[col]? with
      | none => .ok (columns.addEmptyRow type s)
      | some prop => do
          let value ← valueForProperty schema objects ref prop col
          let column := columns.column type col
          match (s.tables type).findIdx? fun cells => cells[column]? = some value.primaryCell with
          | none =>
              let (s, row) := columns.addEmptyRow type s
              return (s.set type row column value.primaryCell, row)
          | some row =>
              if tryUpdate then return (s, row)
              else .error (.existingPrimaryKey (schema type).name value.primaryCell)

def populate (add : Fin n → Adding κ n → Except CreateError (Adding κ n × Nat)) (ref : Fin n)
    (row : Nat) : List (Property κ) → Nat → Adding κ n → Except CreateError (Adding κ n)
  | [], _, s => .ok s
  | prop :: props, col, s =>
      if prop.isPrimary then populate add ref row props (col + 1) s
      else do
        let value ← valueForProperty schema objects ref prop col
        let column := columns.column (objects ref).type col
        let s ← setPropertyValue add (objects ref).type row column value s
        populate add ref row props (col + 1) s

def add (tryUpdate : Bool) : Nat → Fin n → Adding κ n → Except CreateError (Adding κ n × Nat)
  | 0, _, _ => .error .outOfFuel
  | fuel + 1, ref, s => do
      let (s, row) ← columns.rowFor schema objects tryUpdate ref s
      let s ← columns.populate schema objects (add tryUpdate fuel) ref row
        (schema (objects ref).type).persistedProperties 0 (s.manage ref row)
      return (s, row)

def addObjectToRealm (tryUpdate : Bool) (ref : Fin n) (s : Adding κ n) :
    Except CreateError (Adding κ n × Nat) :=
  columns.add schema objects tryUpdate n ref s

end Create

/-! ### Reading through the columns -/

section Read

variable (schema : Schema κ)

/-- The values of the properties of a row. -/
def readRow (type : κ) (cells : List Cell) : List Cell :=
  (List.range (schema type).persistedProperties.length).map fun col =>
    cells.getD (columns.column type col) .null

def readTables (tables : κ → List (List Cell)) (type : κ) : List (List Cell) :=
  (tables type).map (columns.readRow schema type)

def read (s : Adding κ n) : Adding κ n := { s with tables := columns.readTables schema s.tables }

/-- Every row has the columns of the properties. -/
def Fits (tables : κ → List (List Cell)) : Prop :=
  ∀ type, ∀ cells ∈ tables type, ∀ col < (schema type).persistedProperties.length,
    columns.column type col < cells.length

/-- Rows stay where they are, and keep what they have in columns of no property. -/
def Keeps (tables tables' : κ → List (List Cell)) : Prop :=
  ∀ type (row : Nat) (cells : List Cell), (tables type)[row]? = some cells →
    ∃ cells', (tables' type)[row]? = some cells' ∧
      ∀ column, (∀ col < (schema type).persistedProperties.length,
        columns.column type col ≠ column) → cells'[column]? = cells[column]?

/-- What was made of `start` so far, and what it reads as. -/
structure Reads (start : κ → List (List Cell)) (s t : Adding κ n) : Prop where
  fits : columns.Fits schema s.tables
  read_eq : columns.read schema s = t
  keeps : columns.Keeps schema start s.tables

end Read

end Columns

/-! ### One row -/

section Rows

variable {columns : Columns κ} {type : κ} {cells : List Cell} {col row : Nat} {cell : Cell}

theorem Columns.length_readRow (columns : Columns κ) (type : κ) (cells : List Cell) :
    (columns.readRow schema type cells).length = (schema type).persistedProperties.length := by
  simp [Columns.readRow]

theorem Columns.getElem?_readRow (hcol : col < (schema type).persistedProperties.length)
    (hcell : columns.column type col < cells.length) :
    (columns.readRow schema type cells)[col]? = cells[columns.column type col]? := by
  simp [Columns.readRow, hcol, hcell]

/-- A new row reads as a row of empty values. -/
theorem Columns.readRow_newRow (hserves : columns.Serves schema) (type : κ) (row : Nat) :
    columns.readRow schema type (columns.newRow type row) =
      (schema type).persistedProperties.map Property.emptyCell := by
  apply List.ext_getElem?
  intro col
  by_cases hcol : col < (schema type).persistedProperties.length
  · have hempty := hserves.newRow_column type row col _ (List.getElem?_eq_getElem hcol)
    rw [columns.getElem?_readRow hcol (List.getElem?_eq_some_iff.mp hempty).1, hempty,
      List.getElem?_map, List.getElem?_eq_getElem hcol]
    rfl
  · rw [List.getElem?_eq_none (by simpa [columns.length_readRow] using hcol),
      List.getElem?_eq_none (by simpa using hcol)]

/-- A write to the column of a property is a write to the property. -/
theorem Columns.readRow_set (hserves : columns.Serves schema)
    (hcol : col < (schema type).persistedProperties.length)
    (hcell : columns.column type col < cells.length) :
    columns.readRow schema type (cells.set (columns.column type col) cell) =
      (columns.readRow schema type cells).set col cell := by
  apply List.ext_getElem
  · simp [Columns.readRow]
  intro col' hcol' _
  have hlt : col' < (schema type).persistedProperties.length := by
    rwa [columns.length_readRow] at hcol'
  by_cases heq : col = col'
  · subst heq
    simp [Columns.readRow, hcell]
  · have hne : columns.column type col ≠ columns.column type col' := fun hsame =>
      heq (hserves.column_injective type col col' hcol hlt hsame)
    simp [Columns.readRow, List.getElem_set_ne heq, List.getElem?_set_ne hne]

end Rows

/-! ### One operation -/

section Operations

variable {columns : Columns κ} {start : κ → List (List Cell)} {s t : Adding κ n} {type : κ}
  {row col : Nat} {cell : Cell}

theorem Columns.Keeps.refl (columns : Columns κ) (schema : Schema κ)
    (tables : κ → List (List Cell)) :
    columns.Keeps schema tables tables := fun _ _ cells hcells => ⟨cells, hcells, fun _ _ => rfl⟩

theorem Columns.Reads.refl (h : columns.Fits schema s.tables) :
    columns.Reads schema s.tables s (columns.read schema s) :=
  ⟨h, rfl, Columns.Keeps.refl columns schema s.tables⟩

theorem Columns.Reads.manage (h : columns.Reads schema start s t) (ref : Fin n) (row : Nat) :
    columns.Reads schema start (s.manage ref row) (t.manage ref row) := by
  obtain ⟨hfits, rfl, hkeeps⟩ := h
  exact ⟨hfits, rfl, hkeeps⟩

/-- The row with a value in the column of a property is the row with that value. -/
theorem Columns.findIdx?_read (h : columns.Fits schema s.tables)
    (hcol : col < (schema type).persistedProperties.length) (cell : Cell) :
    (((columns.read schema s).tables type).findIdx? fun cells => cells[col]? = some cell) =
      (s.tables type).findIdx? fun cells => cells[columns.column type col]? = some cell := by
  have hrows : ∀ cells ∈ s.tables type,
      (columns.readRow schema type cells)[col]? = cells[columns.column type col]? :=
    fun cells hcells => columns.getElem?_readRow hcol (h type cells hcells col hcol)
  simp only [Columns.read, Columns.readTables]
  rw [List.findIdx?_map]
  generalize s.tables type = rows at hrows
  induction rows with
  | nil => rfl
  | cons cells rows ih =>
    rw [List.findIdx?_cons, List.findIdx?_cons, Function.comp_apply, hrows cells (by simp),
      ih fun other hother => hrows other (List.mem_cons_of_mem _ hother)]

variable [DecidableEq κ]

theorem Columns.read_addEmptyRow (hserves : columns.Serves schema) (type : κ) (s : Adding κ n) :
    columns.read schema (columns.addEmptyRow type s).1 =
      ((columns.read schema s).addEmptyRow schema type).1 := by
  simp only [Columns.addEmptyRow, Adding.addEmptyRow, Columns.read]
  congr 1
  funext type'
  by_cases htype : type' = type
  · subst htype
    simp [Columns.readTables, readRow_newRow hserves]
  · simp [Columns.readTables, Function.update_of_ne htype]

theorem Columns.Fits.addEmptyRow (h : columns.Fits schema s.tables)
    (hserves : columns.Serves schema) (type : κ) :
    columns.Fits schema (columns.addEmptyRow type s).1.tables := by
  intro type' cells hcells col hcol
  by_cases htype : type' = type
  · subst htype
    simp only [Columns.addEmptyRow, Function.update_self, List.mem_append,
      List.mem_singleton] at hcells
    rcases hcells with hcells | rfl
    · exact h type' cells hcells col hcol
    · have hempty := hserves.newRow_column type' (s.tables type').length col _
        (List.getElem?_eq_getElem hcol)
      exact (List.getElem?_eq_some_iff.mp hempty).1
  · simp only [Columns.addEmptyRow, Function.update_of_ne htype] at hcells
    exact h type' cells hcells col hcol

theorem Columns.Reads.addEmptyRow (h : columns.Reads schema start s t)
    (hserves : columns.Serves schema) (type : κ) :
    columns.Reads schema start (columns.addEmptyRow type s).1 (t.addEmptyRow schema type).1 ∧
      (columns.addEmptyRow type s).2 = (t.addEmptyRow schema type).2 := by
  obtain ⟨hfits, rfl, hkeeps⟩ := h
  refine ⟨⟨hfits.addEmptyRow hserves type, Columns.read_addEmptyRow hserves type s, ?_⟩, ?_⟩
  · intro type' row cells hcells
    obtain ⟨cells', hcells', hsame⟩ := hkeeps type' row cells hcells
    refine ⟨cells', ?_, hsame⟩
    by_cases htype : type' = type
    · subst htype
      simp only [Columns.addEmptyRow, Function.update_self]
      rw [List.getElem?_append_left (List.getElem?_eq_some_iff.mp hcells').1, hcells']
    · simpa only [Columns.addEmptyRow, Function.update_of_ne htype] using hcells'
  · simp [Columns.addEmptyRow, Adding.addEmptyRow, Columns.read, Columns.readTables]

theorem Columns.read_set (hserves : columns.Serves schema) (hfits : columns.Fits schema s.tables)
    (hcol : col < (schema type).persistedProperties.length) :
    columns.read schema (s.set type row (columns.column type col) cell) =
      (columns.read schema s).set type row col cell := by
  simp only [Adding.set, Columns.read]
  congr 1
  funext type'
  by_cases htype : type' = type
  · subst htype
    simp only [Columns.readTables, Function.update_self]
    apply List.ext_getElem?
    intro row'
    rw [List.getElem?_map, List.getElem?_modify, List.getElem?_modify, List.getElem?_map]
    cases hrow : (s.tables type')[row']? with
    | none => rfl
    | some cells =>
      have hcell := hfits type' cells (List.mem_of_getElem? hrow) col hcol
      by_cases heq : row = row'
      · simp [heq, readRow_set hserves hcol hcell]
      · simp [heq]
  · simp [Columns.readTables, Function.update_of_ne htype]

theorem Columns.Reads.set (h : columns.Reads schema start s t) (hserves : columns.Serves schema)
    (hcol : col < (schema type).persistedProperties.length) (row : Nat) (cell : Cell) :
    columns.Reads schema start (s.set type row (columns.column type col) cell)
      (t.set type row col cell) := by
  obtain ⟨hfits, rfl, hkeeps⟩ := h
  refine ⟨?_, Columns.read_set hserves hfits hcol, ?_⟩
  · intro type' cells hcells col' hcol'
    obtain ⟨row', hrow'⟩ := List.mem_iff_getElem?.mp hcells
    by_cases hself : (type', row') = (type, row)
    · obtain ⟨rfl, rfl⟩ := Prod.mk.inj hself
      obtain ⟨old, hold⟩ : ∃ old, (s.tables type')[row']? = some old := by
        have hlt := (List.getElem?_eq_some_iff.mp hrow').1
        rw [Adding.length_tables_set] at hlt
        exact ⟨_, List.getElem?_eq_getElem hlt⟩
      rw [Adding.getElem?_tables_set_self _ _ hold] at hrow'
      cases hrow'
      rw [List.length_set]
      exact hfits type' old (List.mem_of_getElem? hold) col' hcol'
    · rw [Adding.getElem?_tables_set_of_ne hself] at hrow'
      exact hfits type' cells (List.mem_of_getElem? hrow') col' hcol'
  · intro type' row' cells hcells
    obtain ⟨cells', hcells', hsame⟩ := hkeeps type' row' cells hcells
    by_cases hself : (type', row') = (type, row)
    · obtain ⟨rfl, rfl⟩ := Prod.mk.inj hself
      refine ⟨_, Adding.getElem?_tables_set_self _ _ hcells', ?_⟩
      intro column hcolumn
      rw [List.getElem?_set_ne (hcolumn col hcol)]
      exact hsame column hcolumn
    · exact ⟨cells', by rw [Adding.getElem?_tables_set_of_ne hself, hcells'], hsame⟩

end Operations

/-! ### The recursion -/

section Recursion

variable [DecidableEq κ] {columns : Columns κ} {objects : Fin n → Unmanaged κ n}
  {start : κ → List (List Cell)} {s t : Adding κ n}
  {add add' : Fin n → Adding κ n → Except CreateError (Adding κ n × Nat)}

/-- A call that adds an object to the tables, and one that adds it to what they read as. -/
def Columns.AddsAlike (columns : Columns κ) (schema : Schema κ) (start : κ → List (List Cell))
    (add add' : Fin n → Adding κ n → Except CreateError (Adding κ n × Nat)) : Prop :=
  ∀ ref s t, columns.Reads schema start s t →
    Agree (fun a b => columns.Reads schema start a.1 b.1 ∧ a.2 = b.2) (add ref s) (add' ref t)

theorem setPropertyValue_agree (hserves : columns.Serves schema)
    (hadd : columns.AddsAlike schema start add add')
    (h : columns.Reads schema start s t) {type : κ} {col : Nat}
    (hcol : col < (schema type).persistedProperties.length) (row : Nat) (value : Ivar n) :
    Agree (columns.Reads schema start)
      (setPropertyValue add type row (columns.column type col) value s)
      (setPropertyValue add' type row col value t) := by
  cases value with
  | null => exact h.set hserves hcol row .null
  | int value => exact h.set hserves hcol row (.int value)
  | string value => exact h.set hserves hcol row (.string value)
  | object ref =>
    have hunbox : Agree (fun a b => columns.Reads schema start a.1 b.1 ∧ a.2 = b.2)
        (unboxRow add ref s) (unboxRow add' ref t) := by
      have hmanaged : t.managed = s.managed := by
        obtain ⟨-, rfl, -⟩ := h
        rfl
      unfold unboxRow
      rw [hmanaged]
      cases s.managed ref with
      | none => exact hadd ref s t h
      | some link => exact ⟨h, rfl⟩
    apply hunbox.bind
    rintro ⟨s', link⟩ ⟨t', link'⟩ ⟨hreads, rfl⟩
    exact hreads.set hserves hcol row (.link link)

/-- The loop over the properties from `col` on. -/
theorem populate_agree (hserves : columns.Serves schema)
    (hadd : columns.AddsAlike schema start add add') (ref : Fin n) (row : Nat)
    {props : List (Property κ)} {col : Nat}
    (hprops : col + props.length = (schema (objects ref).type).persistedProperties.length)
    (h : columns.Reads schema start s t) :
    Agree (columns.Reads schema start) (columns.populate schema objects add ref row props col s)
      (populate schema objects add' ref row props col t) := by
  induction props generalizing col s t with
  | nil => exact h
  | cons prop props ih =>
    rw [List.length_cons] at hprops
    simp only [Columns.populate, populate]
    by_cases hprimary : prop.isPrimary
    · rw [if_pos hprimary, if_pos hprimary]
      exact ih (by omega) h
    · rw [if_neg hprimary, if_neg hprimary]
      apply (Agree.refl _).bind
      rintro value _ rfl
      apply (setPropertyValue_agree hserves hadd h (by omega) row value).bind
      intro s' t' hreads
      exact ih (by omega) hreads

theorem rowFor_agree (hserves : columns.Serves schema) (tryUpdate : Bool) (ref : Fin n)
    (h : columns.Reads schema start s t) :
    Agree (fun a b => columns.Reads schema start a.1 b.1 ∧ a.2 = b.2)
      (columns.rowFor schema objects tryUpdate ref s) (rowFor schema objects tryUpdate ref t) := by
  have hnew := h.addEmptyRow hserves (objects ref).type
  unfold Columns.rowFor rowFor
  dsimp only
  cases hkey : (schema (objects ref).type).primaryKeyProperty with
  | none => exact hnew
  | some col =>
    dsimp only
    cases hprop : (schema (objects ref).type).persistedProperties[col]? with
    | none => exact hnew
    | some prop =>
      have hcol := (List.getElem?_eq_some_iff.mp hprop).1
      apply (Agree.refl _).bind
      rintro value _ rfl
      have hfind : ((t.tables (objects ref).type).findIdx? fun cells =>
          cells[col]? = some value.primaryCell) =
            (s.tables (objects ref).type).findIdx? fun cells =>
              cells[columns.column (objects ref).type col]? = some value.primaryCell := by
        obtain ⟨hfits, rfl, -⟩ := h
        exact Columns.findIdx?_read hfits hcol value.primaryCell
      rw [hfind]
      cases (s.tables (objects ref).type).findIdx? fun cells =>
          cells[columns.column (objects ref).type col]? = some value.primaryCell with
      | none =>
        refine ⟨?_, hnew.2⟩
        have hset := hnew.1.set hserves hcol (columns.addEmptyRow (objects ref).type s).2
          value.primaryCell
        rw [hnew.2] at hset ⊢
        exact hset
      | some row =>
        dsimp only
        by_cases hupdate : tryUpdate
        · rw [if_pos hupdate, if_pos hupdate]
          exact ⟨h, rfl⟩
        · rw [if_neg hupdate, if_neg hupdate]
          rfl

theorem add_agree (hserves : columns.Serves schema) (objects : Fin n → Unmanaged κ n)
    (start : κ → List (List Cell)) (tryUpdate : Bool) (fuel : Nat) :
    columns.AddsAlike schema start (columns.add schema objects tryUpdate fuel)
      (ObjectCreate.add schema objects tryUpdate fuel) := by
  induction fuel with
  | zero =>
    intro ref s t h
    rfl
  | succ fuel ih =>
    intro ref s t h
    apply (rowFor_agree hserves tryUpdate ref h).bind
    rintro ⟨s', row⟩ ⟨t', row'⟩ ⟨hreads, rfl⟩
    apply (populate_agree hserves ih ref row (Nat.zero_add _) (hreads.manage ref row)).bind
    intro s'' t'' hlast
    exact ⟨hlast, rfl⟩

/-- **Columns do not matter.**  Adding an object through the columns of the properties and
    then reading is reading and then adding it property by property; and what the rows that
    were there have in other columns stays. -/
theorem addObjectToRealm_columns (hserves : columns.Serves schema) (objects : Fin n → Unmanaged κ n)
    (tryUpdate : Bool) (ref : Fin n) {s : Adding κ n} (h : columns.Fits schema s.tables) :
    Agree (fun a b => columns.Reads schema s.tables a.1 b.1 ∧ a.2 = b.2)
      (columns.addObjectToRealm schema objects tryUpdate ref s)
      (addObjectToRealm schema objects tryUpdate ref (columns.read schema s)) :=
  add_agree hserves objects s.tables tryUpdate n ref s (columns.read schema s)
    (Columns.Reads.refl h)

/-- Nodes with the link before the value, and object IDs before both. -/
def idFirstColumns : Columns Unit where
  column _ col := 2 - col
  newRow _ _ := [.int 1, .null, .int 0]

theorem idFirstColumns_serves : idFirstColumns.Serves nodeSchema := by
  constructor
  · intro type col col' hcol hcol' heq
    have hlength : (nodeSchema type).persistedProperties.length = 2 := rfl
    simp only [idFirstColumns] at heq
    omega
  · intro _ row col prop hprop
    match col, hprop with
    | 0, hprop => cases hprop; rfl
    | 1, hprop => cases hprop; rfl

/-- One node that is stored. -/
def storedNode : Adding Unit 2 := ⟨fun _ => [[.int 1, .null, .int 1]], fun _ => none⟩

theorem addObjectToRealm_columns_twoNodes :
    Agree (fun a b => idFirstColumns.Reads nodeSchema storedNode.tables a.1 b.1 ∧ a.2 = b.2)
      (idFirstColumns.addObjectToRealm nodeSchema twoNodes false 0 storedNode)
      (addObjectToRealm nodeSchema twoNodes false 0 (idFirstColumns.read nodeSchema storedNode)) :=
  addObjectToRealm_columns idFirstColumns_serves twoNodes false 0 (by
    intro _ cells hcells col _
    obtain rfl := List.mem_singleton.mp hcells
    exact Nat.lt_succ_of_le (Nat.sub_le 2 col))

end Recursion

end ObjectCreate

end W3Stats

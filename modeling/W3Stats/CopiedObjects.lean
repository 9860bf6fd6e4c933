import W3Stats.ObjectCreate

/-!
# The copy of an object graph

What `Object::create` leaves in the tables.  A call for one object adds new rows
only, and when it returns every object it has reached is copied: its row holds its
values, and its links are the rows of the objects it links to.  While the loop
over the properties of an object runs, its own row is the only one that is not
complete yet.
-/

namespace W3Stats

namespace ObjectCreate

variable {κ : Type} [DecidableEq κ] {n : Nat}

/-! ### One row and one cell -/

namespace Adding

variable {s : Adding κ n} {type type' : κ} {row row' col col' : Nat} {cell : Cell}

@[simp] theorem length_tables_set :
    ((s.set type row col cell).tables type').length = (s.tables type').length := by
  by_cases h : type' = type
  · subst h
    simp [set]
  · simp [set, Function.update_of_ne h]

theorem getElem?_tables_set_of_ne (h : (type', row') ≠ (type, row)) :
    ((s.set type row col cell).tables type')[row']? = (s.tables type')[row']? := by
  by_cases htype : type' = type
  · subst htype
    have hrow : row ≠ row' := fun heq => h (by rw [heq])
    simp [set, hrow]
  · simp [set, Function.update_of_ne htype]

theorem getElem?_tables_set_self (col : Nat) (cell : Cell) {cells : List Cell}
    (h : (s.tables type)[row]? = some cells) :
    ((s.set type row col cell).tables type)[row]? = some (cells.set col cell) := by
  simp [set, h]

end Adding

/-! ### Schemas and objects -/

/-- What the schema validation of the Realm and of its classes has established. -/
structure Schema.Valid (schema : Schema κ) : Prop where
  oneKey : ∀ type (col col' : Nat) (prop prop' : Property κ),
    (schema type).persistedProperties[col]? = some prop →
    (schema type).persistedProperties[col']? = some prop' →
    prop.isPrimary = true → prop'.isPrimary = true → col = col'
  keyNoLink : ∀ type, ∀ prop ∈ (schema type).persistedProperties, prop.isPrimary = true →
    ∀ target, prop.type ≠ .object target

/-- No class with a primary key is linked to. -/
def Schema.LinksUnkeyed (schema : Schema κ) : Prop :=
  ∀ type, ∀ prop ∈ (schema type).persistedProperties, ∀ target, prop.type = .object target →
    (schema target).primaryKeyProperty = none

section Objects

variable (schema : Schema κ) (objects : Fin n → Unmanaged κ n)

/-- The properties of the class of an object. -/
def properties (ref : Fin n) : List (Property κ) :=
  (schema (objects ref).type).persistedProperties

/-- The value of a property of an object. -/
def value (ref : Fin n) (col : Nat) : Ivar n := (objects ref).ivars.getD col .null

/-- Every value has the type of its property. -/
def Conforms : Prop :=
  ∀ ref col prop, (properties schema objects ref)[col]? = some prop →
    validateValue objects (value objects ref col) prop = true

/-- An object links to another one. -/
def Links (ref ref' : Fin n) : Prop :=
  ∃ col prop, (properties schema objects ref)[col]? = some prop ∧
    value objects ref col = .object ref'

/-- The cell a value is copied to: a link is one to the row of its object. -/
def Ivar.cell (managed : Fin n → Option Nat) : Ivar n → Option Cell
  | .null => some .null
  | .int value => some (.int value)
  | .string value => some (.string value)
  | .object ref => (managed ref).map .link

/-- A row has the value of a property of an object. -/
def CellAt (s : Adding κ n) (ref : Fin n) (row col : Nat) : Prop :=
  ∃ cells cell, (s.tables (objects ref).type)[row]? = some cells ∧ cells[col]? = some cell ∧
    (value objects ref col).cell s.managed = some cell

/-- The object has a row, and the row has its values. -/
def Copied (s : Adding κ n) (ref : Fin n) : Prop :=
  ∃ row, s.managed ref = some row ∧ ∀ col prop,
    (properties schema objects ref)[col]? = some prop → CellAt objects s ref row col

/-- Rows have a cell for each property, objects have rows that exist, and no two objects
    have the same row. -/
structure Sound (s : Adding κ n) : Prop where
  widths : ∀ type (row : Nat) (cells : List Cell), (s.tables type)[row]? = some cells →
    cells.length = (schema type).persistedProperties.length
  placed : ∀ ref row, s.managed ref = some row → row < (s.tables (objects ref).type).length
  distinct : ∀ ref ref' row, s.managed ref = some row → s.managed ref' = some row →
    (objects ref).type = (objects ref').type → ref = ref'

/-- What the call for an object has done when it returns: it has added rows, one for
    each object it reached and found without one, and these are copied. -/
structure Grown (root : Fin n) (s s' : Adding κ n) : Prop where
  managed : ∀ ref row, s.managed ref = some row → s'.managed ref = some row
  kept : ∀ type, s.tables type <+: s'.tables type
  fresh : ∀ ref row, s.managed ref = none → s'.managed ref = some row →
    (s.tables (objects ref).type).length ≤ row
  onto : ∀ type row, (s.tables type).length ≤ row → row < (s'.tables type).length →
    ∃ ref, (objects ref).type = type ∧ s.managed ref = none ∧ s'.managed ref = some row
  copied : ∀ ref, s.managed ref = none → s'.managed ref ≠ none → Copied schema objects s' ref
  reached : ∀ ref, s.managed ref = none → s'.managed ref ≠ none →
    Relation.ReflTransGen (Links schema objects) root ref

/-- The loop over the properties of an object, before the one at `col`: its own row has
    the values up to there, and the objects that were added meanwhile are copied. -/
structure Populating (start s : Adding κ n) (ref : Fin n) (row col : Nat) : Prop where
  sound : Sound schema objects s
  self : s.managed ref = some row
  cells : ∀ col' prop, (properties schema objects ref)[col']? = some prop →
    col' < col ∨ prop.isPrimary = true → CellAt objects s ref row col'
  managed : ∀ ref' row', start.managed ref' = some row' → s.managed ref' = some row'
  longer : ∀ type, (start.tables type).length ≤ (s.tables type).length
  kept : ∀ type row', row' < (start.tables type).length →
    (type, row') ≠ ((objects ref).type, row) →
    (s.tables type)[row']? = (start.tables type)[row']?
  fresh : ∀ ref' row', ref' ≠ ref → start.managed ref' = none → s.managed ref' = some row' →
    (start.tables (objects ref').type).length ≤ row'
  onto : ∀ type row', (start.tables type).length ≤ row' → row' < (s.tables type).length →
    (type, row') ≠ ((objects ref).type, row) →
    ∃ ref', (objects ref').type = type ∧ start.managed ref' = none ∧ s.managed ref' = some row'
  copied : ∀ ref', ref' ≠ ref → start.managed ref' = none → s.managed ref' ≠ none →
    Copied schema objects s ref'
  reached : ∀ ref', start.managed ref' = none → s.managed ref' ≠ none →
    Relation.ReflTransGen (Links schema objects) ref ref'

end Objects

variable {schema : Schema κ} {objects : Fin n → Unmanaged κ n} {s s' start : Adding κ n}
  {ref ref' : Fin n} {row col : Nat}

omit [DecidableEq κ] in
theorem Ivar.cell_mono {managed managed' : Fin n → Option Nat}
    (h : ∀ ref row, managed ref = some row → managed' ref = some row) {value : Ivar n} {cell : Cell}
    (hcell : value.cell managed = some cell) : value.cell managed' = some cell := by
  cases value with
  | object ref =>
    obtain ⟨row, hrow, rfl⟩ := Option.map_eq_some_iff.mp hcell
    simp [Ivar.cell, h ref row hrow]
  | _ => exact hcell

omit [DecidableEq κ] in
/-- A row that stays keeps the values it has. -/
theorem CellAt.mono (h : CellAt objects s ref row col)
    (hmanaged : ∀ ref row, s.managed ref = some row → s'.managed ref = some row)
    (hrow : (s'.tables (objects ref).type)[row]? = (s.tables (objects ref).type)[row]?) :
    CellAt objects s' ref row col := by
  obtain ⟨cells, cell, hcells, hcell, hvalue⟩ := h
  exact ⟨cells, cell, hrow.trans hcells, hcell, Ivar.cell_mono hmanaged hvalue⟩

omit [DecidableEq κ] in
theorem Copied.mono (h : Copied schema objects s ref)
    (hmanaged : ∀ ref row, s.managed ref = some row → s'.managed ref = some row)
    (hrow : ∀ row, s.managed ref = some row →
      (s'.tables (objects ref).type)[row]? = (s.tables (objects ref).type)[row]?) :
    Copied schema objects s' ref := by
  obtain ⟨row, hself, hcells⟩ := h
  refine ⟨row, hmanaged ref row hself, ?_⟩
  intro col prop hprop
  exact (hcells col prop hprop).mono hmanaged (hrow row hself)

omit [DecidableEq κ] in
theorem Grown.getElem?_eq {root : Fin n} (h : Grown schema objects root s s') (type : κ)
    (hrow : row < (s.tables type).length) : (s'.tables type)[row]? = (s.tables type)[row]? := by
  obtain ⟨added, hadded⟩ := h.kept type
  rw [← hadded, List.getElem?_append_left hrow]

/-! ### The steps of the loop -/

theorem Sound.set (h : Sound schema objects s) (type : κ) (row col : Nat) (cell : Cell) :
    Sound schema objects (s.set type row col cell) := by
  refine ⟨?_, ?_, h.distinct⟩
  · intro type' row' cells hcells
    by_cases hown : (type', row') = (type, row)
    · cases hown
      rcases hold : (s.tables type)[row]? with _ | old
      · have hlength := List.getElem?_eq_none_iff.mp hold
        rw [← (Adding.length_tables_set : ((s.set type row col cell).tables type).length = _)]
          at hlength
        rw [List.getElem?_eq_none_iff.mpr hlength] at hcells
        cases hcells
      · rw [Adding.getElem?_tables_set_self col cell hold, Option.some.injEq] at hcells
        rw [← hcells, List.length_set]
        exact h.widths type row old hold
    · rw [Adding.getElem?_tables_set_of_ne hown] at hcells
      exact h.widths type' row' cells hcells
  · intro ref' row' hrow'
    rw [Adding.length_tables_set]
    exact h.placed ref' row' hrow'

omit [DecidableEq κ] in
/-- A call for another object leaves the loop where it is. -/
theorem Populating.grown (h : Populating schema objects start s ref row col)
    (hgrown : Grown schema objects ref' s s') (hsound : Sound schema objects s')
    (hlinks : Links schema objects ref ref') : Populating schema objects start s' ref row col := by
  have hself := h.sound.placed ref row h.self
  have hold : ∀ {ref'' row''}, s'.managed ref'' = some row'' →
      s.managed ref'' = none ∨ s.managed ref'' = some row'' := by
    intro ref'' row'' hmanaged
    rcases hbefore : s.managed ref'' with _ | row₀
    · exact Or.inl rfl
    · right
      rw [← hmanaged, ← hgrown.managed ref'' row₀ hbefore]
  refine ⟨hsound, hgrown.managed ref row h.self, ?_, ?_, ?_, ?_, ?_, ?_, ?_, ?_⟩
  · intro col' prop hprop hdone
    exact (h.cells col' prop hprop hdone).mono hgrown.managed (hgrown.getElem?_eq _ hself)
  · intro ref'' row'' hmanaged
    exact hgrown.managed ref'' row'' (h.managed ref'' row'' hmanaged)
  · intro type
    exact (h.longer type).trans (hgrown.kept type).length_le
  · intro type row' hrow' hne
    rw [hgrown.getElem?_eq type (hrow'.trans_le (h.longer type))]
    exact h.kept type row' hrow' hne
  · intro ref'' row'' hne hnone hmanaged
    rcases hold hmanaged with hnew | hbefore
    · exact (h.longer _).trans (hgrown.fresh ref'' row'' hnew hmanaged)
    · exact h.fresh ref'' row'' hne hnone hbefore
  · intro type row' hle hlt hne
    by_cases hrow' : row' < (s.tables type).length
    · obtain ⟨ref'', htype, hnone, hmanaged⟩ := h.onto type row' hle hrow' hne
      exact ⟨ref'', htype, hnone, hgrown.managed ref'' row' hmanaged⟩
    · obtain ⟨ref'', htype, hnone, hmanaged⟩ :=
        hgrown.onto type row' (Nat.le_of_not_lt hrow') hlt
      refine ⟨ref'', htype, ?_, hmanaged⟩
      by_contra hsome
      obtain ⟨row₀, hrow₀⟩ := Option.ne_none_iff_exists'.mp hsome
      rw [h.managed ref'' row₀ hrow₀] at hnone
      cases hnone
  · intro ref'' hne hnone hmanaged
    rcases hbefore : s.managed ref'' with _ | row₀
    · exact hgrown.copied ref'' hbefore hmanaged
    · apply (h.copied ref'' hne hnone (by simp [hbefore])).mono hgrown.managed
      intro row' hrow'
      exact hgrown.getElem?_eq _ (h.sound.placed ref'' row' hrow')
  · intro ref'' hnone hmanaged
    rcases hbefore : s.managed ref'' with _ | row₀
    · exact (Relation.ReflTransGen.single hlinks).trans (hgrown.reached ref'' hbefore hmanaged)
    · exact h.reached ref'' hnone (by simp [hbefore])

/-- The value of the property at `col` is set in the row of the loop. -/
theorem Populating.set (h : Populating schema objects start s ref row col) {prop : Property κ}
    (hprop : (properties schema objects ref)[col]? = some prop) {cell : Cell}
    (hcell : (value objects ref col).cell s.managed = some cell) :
    Populating schema objects start (s.set (objects ref).type row col cell) ref row (col + 1) := by
  have hplaced := h.sound.placed ref row h.self
  obtain ⟨cells, hcells⟩ : ∃ cells, (s.tables (objects ref).type)[row]? = some cells :=
    ⟨_, List.getElem?_eq_getElem hplaced⟩
  have hwidth : col < cells.length := by
    rw [h.sound.widths _ row cells hcells]
    exact (List.getElem?_eq_some_iff.mp hprop).1
  have hown := Adding.getElem?_tables_set_self col cell hcells
  refine ⟨h.sound.set _ _ _ _, h.self, ?_, h.managed, ?_, ?_, h.fresh, ?_, ?_, h.reached⟩
  · intro col' prop' hprop' hdone
    by_cases hcol : col' = col
    · subst hcol
      exact ⟨_, cell, hown, by simp [hwidth], hcell⟩
    · have hbefore : col' < col ∨ prop'.isPrimary = true := by
        rcases hdone with hlt | hprimary
        · exact Or.inl (by omega)
        · exact Or.inr hprimary
      obtain ⟨cells', cell', hcells', hcell', hvalue⟩ := h.cells col' prop' hprop' hbefore
      rw [hcells, Option.some.injEq] at hcells'
      subst hcells'
      refine ⟨_, cell', hown, ?_, hvalue⟩
      rw [List.getElem?_set_ne (Ne.symm hcol)]
      exact hcell'
  · intro type
    rw [Adding.length_tables_set]
    exact h.longer type
  · intro type row' hrow' hne
    rw [Adding.getElem?_tables_set_of_ne hne]
    exact h.kept type row' hrow' hne
  · intro type row' hle hlt hne
    rw [Adding.length_tables_set] at hlt
    exact h.onto type row' hle hlt hne
  · intro ref' hne hnone hmanaged
    refine Copied.mono (h.copied ref' hne hnone hmanaged) (fun _ _ hrow => hrow) ?_
    intro row' hrow'
    apply Adding.getElem?_tables_set_of_ne
    intro heq
    obtain ⟨htype, rfl⟩ := Prod.mk.inj heq
    exact hne (h.sound.distinct ref' ref row' hrow' h.self htype)

omit [DecidableEq κ] in
/-- The property of the primary key is skipped. -/
theorem Populating.skip (h : Populating schema objects start s ref row col) {prop : Property κ}
    (hprop : (properties schema objects ref)[col]? = some prop) (hprimary : prop.isPrimary = true) :
    Populating schema objects start s ref row (col + 1) := by
  refine ⟨h.sound, h.self, ?_, h.managed, h.longer, h.kept, h.fresh, h.onto, h.copied, h.reached⟩
  intro col' prop' hprop' hdone
  by_cases hcol : col' = col
  · subst hcol
    rw [hprop, Option.some.injEq] at hprop'
    subst hprop'
    exact h.cells col' prop hprop (Or.inr hprimary)
  · apply h.cells col' prop' hprop'
    rcases hdone with hlt | hkey
    · exact Or.inl (by omega)
    · exact Or.inr hkey

/-! ### Before the loop and after it -/

omit [DecidableEq κ] in
/-- The row is there and remembered, and the value of the primary key is in it. -/
theorem Populating.begin (hsound : Sound schema objects s) (hnone : start.managed ref = none)
    (hmanaged : s.managed = Function.update start.managed ref (some row))
    (hlonger : ∀ type, (start.tables type).length ≤ (s.tables type).length)
    (hkept : ∀ type row', row' < (start.tables type).length →
      (type, row') ≠ ((objects ref).type, row) →
      (s.tables type)[row']? = (start.tables type)[row']?)
    (honto : ∀ type row', (start.tables type).length ≤ row' → row' < (s.tables type).length →
      (type, row') = ((objects ref).type, row))
    (hkey : ∀ col prop, (properties schema objects ref)[col]? = some prop → prop.isPrimary = true →
      CellAt objects s ref row col) : Populating schema objects start s ref row 0 := by
  have hothers : ∀ ref', ref' ≠ ref → s.managed ref' = start.managed ref' := by
    intro ref' hne
    rw [hmanaged, Function.update_of_ne hne]
  refine ⟨hsound, by rw [hmanaged, Function.update_self], ?_, ?_, hlonger, hkept, ?_, ?_, ?_, ?_⟩
  · intro col prop hprop hdone
    rcases hdone with hlt | hprimary
    · omega
    · exact hkey col prop hprop hprimary
  · intro ref' row' hrow'
    have hne : ref' ≠ ref := by
      rintro rfl
      rw [hnone] at hrow'
      cases hrow'
    rw [hothers ref' hne, hrow']
  · intro ref' row' hne hbefore hafter
    rw [hothers ref' hne, hbefore] at hafter
    cases hafter
  · intro type row' hle hlt hne
    exact absurd (honto type row' hle hlt) hne
  · intro ref' hne hbefore hafter
    rw [hothers ref' hne] at hafter
    exact absurd hbefore hafter
  · intro ref' hbefore hafter
    by_cases hne : ref' = ref
    · rw [hne]
    · rw [hothers ref' hne] at hafter
      exact absurd hbefore hafter

omit [DecidableEq κ] in
/-- After the loop over a new row the call has done its work. -/
theorem Populating.finish (h : Populating schema objects start s ref row
      (properties schema objects ref).length) (hnone : start.managed ref = none)
    (hrow : (start.tables (objects ref).type).length ≤ row) :
    Grown schema objects ref start s := by
  refine ⟨h.managed, ?_, ?_, ?_, ?_, h.reached⟩
  · intro type
    rw [List.prefix_iff_getElem?]
    intro row' hrow'
    have hne : (type, row') ≠ ((objects ref).type, row) := by
      intro heq
      obtain ⟨rfl, rfl⟩ := Prod.mk.inj heq
      omega
    rw [h.kept type row' hrow' hne, List.getElem?_eq_getElem hrow']
  · intro ref' row' hbefore hafter
    by_cases hne : ref' = ref
    · subst hne
      rw [h.self, Option.some.injEq] at hafter
      omega
    · exact h.fresh ref' row' hne hbefore hafter
  · intro type row' hle hlt
    by_cases hown : (type, row') = ((objects ref).type, row)
    · obtain ⟨rfl, rfl⟩ := Prod.mk.inj hown
      exact ⟨ref, rfl, hnone, h.self⟩
    · exact h.onto type row' hle hlt hown
  · intro ref' hbefore hafter
    by_cases hne : ref' = ref
    · subst hne
      refine ⟨row, h.self, ?_⟩
      intro col prop hprop
      exact h.cells col prop hprop (Or.inl (List.getElem?_eq_some_iff.mp hprop).1)
    · exact h.copied ref' hne hbefore hafter

/-! ### The loop and the recursion -/

/-- The objects that have no row yet. -/
def unmanaged (s : Adding κ n) : Finset (Fin n) :=
  Finset.univ.filter fun ref => s.managed ref = none

omit [DecidableEq κ] in
theorem mem_unmanaged : ref ∈ unmanaged s ↔ s.managed ref = none := by
  simp [unmanaged]

omit [DecidableEq κ] in
theorem unmanaged_subset (h : ∀ ref row, s.managed ref = some row → s'.managed ref = some row) :
    unmanaged s' ⊆ unmanaged s := by
  intro ref href
  rw [mem_unmanaged] at href ⊢
  rcases hbefore : s.managed ref with _ | row
  · rfl
  · rw [h ref row hbefore] at href
    cases href

/-- What a call for an object without a row does. -/
def Adds (schema : Schema κ) (objects : Fin n → Unmanaged κ n)
    (add : Fin n → Adding κ n → Except CreateError (Adding κ n × Nat)) (fuel : Nat) : Prop :=
  ∀ ref s, Sound schema objects s → s.managed ref = none →
    (schema (objects ref).type).primaryKeyProperty = none → (unmanaged s).card ≤ fuel →
    ∃ s' row, add ref s = .ok (s', row) ∧ s'.managed ref = some row ∧ Sound schema objects s' ∧
      Grown schema objects ref s s'

theorem setPropertyValue_spec
    {add : Fin n → Adding κ n → Except CreateError (Adding κ n × Nat)} {fuel : Nat}
    (hadd : Adds schema objects add fuel) (hlinks : schema.LinksUnkeyed)
    (hconforms : Conforms schema objects) (h : Populating schema objects start s ref row col)
    {prop : Property κ} (hprop : (properties schema objects ref)[col]? = some prop)
    (hfuel : (unmanaged s).card ≤ fuel) :
    ∃ s', setPropertyValue add (objects ref).type row col (value objects ref col) s = .ok s' ∧
      Populating schema objects start s' ref row (col + 1) ∧ (unmanaged s').card ≤ fuel := by
  have hvalid := hconforms ref col prop hprop
  rcases hvalue : value objects ref col with _ | number | text | ref'
  · exact ⟨_, rfl, h.set hprop (by rw [hvalue]; rfl), hfuel⟩
  · exact ⟨_, rfl, h.set hprop (by rw [hvalue]; rfl), hfuel⟩
  · exact ⟨_, rfl, h.set hprop (by rw [hvalue]; rfl), hfuel⟩
  · simp only [setPropertyValue, unboxRow]
    rcases hmanaged : s.managed ref' with _ | link
    · have htype : prop.type = .object (objects ref').type := by
        rw [hvalue] at hvalid
        unfold validateValue at hvalid
        split at hvalid <;> simp_all
      have hunkeyed := hlinks _ prop (List.mem_of_getElem? hprop) _ htype
      obtain ⟨s', link, hcall, hself, hsound, hgrown⟩ := hadd ref' s h.sound hmanaged hunkeyed hfuel
      have hpopulating := h.grown hgrown hsound ⟨col, prop, hprop, hvalue⟩
      refine ⟨_, by rw [hcall]; rfl, hpopulating.set hprop (by rw [hvalue, Ivar.cell, hself]; rfl),
        ?_⟩
      exact (Finset.card_le_card (unmanaged_subset hgrown.managed)).trans hfuel
    · exact ⟨_, rfl, h.set hprop (by rw [hvalue, Ivar.cell, hmanaged]; rfl), hfuel⟩

theorem populate_spec
    {add : Fin n → Adding κ n → Except CreateError (Adding κ n × Nat)} {fuel : Nat}
    (hadd : Adds schema objects add fuel) (hlinks : schema.LinksUnkeyed)
    (hconforms : Conforms schema objects) (props done : List (Property κ))
    (hprops : properties schema objects ref = done ++ props)
    (h : Populating schema objects start s ref row done.length)
    (hfuel : (unmanaged s).card ≤ fuel) :
    ∃ s', populate schema objects add ref row props done.length s = .ok s' ∧
      Populating schema objects start s' ref row (properties schema objects ref).length := by
  induction props generalizing done s with
  | nil =>
    rw [List.append_nil] at hprops
    exact ⟨s, rfl, by rwa [hprops]⟩
  | cons prop props ih =>
    have hprop : (properties schema objects ref)[done.length]? = some prop := by
      simp [hprops]
    have hnext : properties schema objects ref = (done ++ [prop]) ++ props := by
      simp [hprops]
    have hlength : (done ++ [prop]).length = done.length + 1 := by simp
    by_cases hprimary : prop.isPrimary = true
    · have hskipped := h.skip hprop hprimary
      rw [populate_primary hprimary, ← hlength]
      rw [← hlength] at hskipped
      exact ih _ hnext hskipped hfuel
    · obtain ⟨s', hset, hpopulating, hfuel'⟩ :=
        setPropertyValue_spec hadd hlinks hconforms h hprop hfuel
      rw [← hlength] at hpopulating
      obtain ⟨s'', hrest, hend⟩ := ih _ hnext hpopulating hfuel'
      refine ⟨s'', ?_, hend⟩
      rw [populate_value (Bool.eq_false_iff.mpr hprimary) (hconforms ref _ prop hprop) hset,
        ← hlength, hrest]

/-! ### A new row -/

theorem getElem?_addEmptyRow {type type' : κ} (hrow : row < (s.tables type').length) :
    ((s.addEmptyRow schema type).1.tables type')[row]? = (s.tables type')[row]? := by
  by_cases htype : type' = type
  · subst htype
    simp [Adding.addEmptyRow, List.getElem?_append_left hrow]
  · simp [Adding.addEmptyRow, Function.update_of_ne htype]

theorem length_addEmptyRow (type type' : κ) :
    ((s.addEmptyRow schema type).1.tables type').length =
      (s.tables type').length + if type' = type then 1 else 0 := by
  by_cases htype : type' = type
  · subst htype
    simp [Adding.addEmptyRow]
  · simp [Adding.addEmptyRow, htype]

theorem Sound.addEmptyRow (h : Sound schema objects s) (type : κ) :
    Sound schema objects (s.addEmptyRow schema type).1 := by
  refine ⟨?_, ?_, h.distinct⟩
  · intro type' row cells hcells
    by_cases hrow : row < (s.tables type').length
    · rw [getElem?_addEmptyRow hrow] at hcells
      exact h.widths type' row cells hcells
    · have hlt := (List.getElem?_eq_some_iff.mp hcells).1
      rw [length_addEmptyRow] at hlt
      by_cases htype : type' = type
      · subst htype
        have hlast : row = (s.tables type').length := by
          simp only [if_true] at hlt
          omega
        subst hlast
        have hnew : cells = (schema type').persistedProperties.map Property.emptyCell := by
          simpa [Adding.addEmptyRow] using hcells.symm
        rw [hnew, List.length_map]
      · rw [if_neg htype] at hlt
        omega
  · intro ref row hrow
    have hplaced := h.placed ref row hrow
    rw [length_addEmptyRow]
    omega

omit [DecidableEq κ] in
/-- A row that no object has is given to an object that has none. -/
theorem Sound.manage (h : Sound schema objects s)
    (hrow : row < (s.tables (objects ref).type).length)
    (hfree : ∀ ref', (objects ref').type = (objects ref).type → s.managed ref' ≠ some row) :
    Sound schema objects (s.manage ref row) := by
  refine ⟨h.widths, ?_, ?_⟩
  · intro ref' row' hrow'
    by_cases hne : ref' = ref
    · subst hne
      simp only [Adding.manage, Function.update_self, Option.some.injEq] at hrow'
      exact hrow' ▸ hrow
    · simp only [Adding.manage, Function.update_of_ne hne] at hrow'
      exact h.placed ref' row' hrow'
  · intro ref₁ ref₂ row' h₁ h₂ htype
    by_cases hne₁ : ref₁ = ref
    · by_cases hne₂ : ref₂ = ref
      · rw [hne₁, hne₂]
      · subst hne₁
        simp only [Adding.manage, Function.update_self, Option.some.injEq] at h₁
        simp only [Adding.manage, Function.update_of_ne hne₂] at h₂
        exact absurd (h₁ ▸ h₂) (hfree ref₂ htype.symm)
    · by_cases hne₂ : ref₂ = ref
      · subst hne₂
        simp only [Adding.manage, Function.update_self, Option.some.injEq] at h₂
        simp only [Adding.manage, Function.update_of_ne hne₁] at h₁
        exact absurd (h₂ ▸ h₁) (hfree ref₁ htype)
      · simp only [Adding.manage, Function.update_of_ne hne₁] at h₁
        simp only [Adding.manage, Function.update_of_ne hne₂] at h₂
        exact h.distinct ref₁ ref₂ row' h₁ h₂ htype

/-- The row appended for an object is one that no object has. -/
theorem Sound.manage_new (h : Sound schema objects s) (ref : Fin n) :
    Sound schema objects ((s.addEmptyRow schema (objects ref).type).1.manage ref
      (s.tables (objects ref).type).length) := by
  apply (h.addEmptyRow (objects ref).type).manage
  · rw [length_addEmptyRow, if_pos rfl]
    exact Nat.lt_succ_self _
  · intro ref' htype hmanaged
    have hplaced := h.placed ref' _ hmanaged
    rw [htype] at hplaced
    exact absurd hplaced (lt_irrefl _)

/-- The loop begins with a new row, whose cells other than the key are empty. -/
theorem Populating.begin_new (hnone : s.managed ref = none) {s₁ : Adding κ n}
    (hsound : Sound schema objects s₁)
    (hmanaged : s₁.managed =
      Function.update s.managed ref (some (s.tables (objects ref).type).length))
    (htables : ∀ type row',
      (type, row') ≠ ((objects ref).type, (s.tables (objects ref).type).length) →
      (s₁.tables type)[row']? = ((s.addEmptyRow schema (objects ref).type).1.tables type)[row']?)
    (hlength : ∀ type, (s₁.tables type).length =
      ((s.addEmptyRow schema (objects ref).type).1.tables type).length)
    (hkey : ∀ col prop, (properties schema objects ref)[col]? = some prop → prop.isPrimary = true →
      CellAt objects s₁ ref (s.tables (objects ref).type).length col) :
    Populating schema objects s s₁ ref (s.tables (objects ref).type).length 0 := by
  apply Populating.begin hsound hnone hmanaged
  · intro type
    rw [hlength, length_addEmptyRow]
    omega
  · intro type row' hrow' hne
    rw [htables type row' hne, getElem?_addEmptyRow hrow']
  · intro type row' hle hlt
    rw [hlength, length_addEmptyRow] at hlt
    by_cases htype : type = (objects ref).type
    · subst htype
      simp only [if_true] at hlt
      have hlast : row' = (s.tables (objects ref).type).length := by omega
      rw [hlast]
    · rw [if_neg htype] at hlt
      omega
  · exact hkey

omit [DecidableEq κ] in
theorem not_isPrimary_of_unkeyed (h : (schema (objects ref).type).primaryKeyProperty = none)
    {prop : Property κ} (hprop : (properties schema objects ref)[col]? = some prop) :
    prop.isPrimary = false := by
  have hnone := List.findIdx?_eq_none_iff.mp h
  simpa using hnone prop (List.mem_of_getElem? hprop)

/-- Enough fuel for the objects that have no row yet is enough. -/
theorem adds (hlinks : schema.LinksUnkeyed) (hconforms : Conforms schema objects)
    (tryUpdate : Bool) (fuel : Nat) :
    Adds schema objects (add schema objects tryUpdate fuel) fuel := by
  induction fuel with
  | zero =>
    intro ref s hsound hnone hunkeyed hfuel
    have hmem : ref ∈ unmanaged s := mem_unmanaged.mpr hnone
    rw [Nat.le_zero, Finset.card_eq_zero] at hfuel
    rw [hfuel] at hmem
    exact absurd hmem (Finset.notMem_empty ref)
  | succ fuel ih =>
    intro ref s hsound hnone hunkeyed hfuel
    have hbegin : Populating schema objects s
        ((s.addEmptyRow schema (objects ref).type).1.manage ref
          (s.tables (objects ref).type).length) ref (s.tables (objects ref).type).length 0 := by
      apply Populating.begin_new hnone (hsound.manage_new ref) rfl
      · intro type row' _
        rfl
      · intro type
        rfl
      · intro col prop hprop hprimary
        rw [not_isPrimary_of_unkeyed hunkeyed hprop] at hprimary
        cases hprimary
    have hmem : ref ∈ unmanaged s := mem_unmanaged.mpr hnone
    have hless : (unmanaged ((s.addEmptyRow schema (objects ref).type).1.manage ref
        (s.tables (objects ref).type).length)).card < (unmanaged s).card := by
      apply Finset.card_lt_card
      refine ⟨unmanaged_subset hbegin.managed, ?_⟩
      intro hsubset
      have hself := mem_unmanaged.mp (hsubset hmem)
      rw [hbegin.self] at hself
      cases hself
    obtain ⟨s', hloop, hend⟩ := populate_spec ih hlinks hconforms
      (properties schema objects ref) [] rfl hbegin (by omega)
    refine ⟨s', (s.tables (objects ref).type).length, ?_, hend.self, hend.sound,
      hend.finish hnone le_rfl⟩
    simp only [List.length_nil] at hloop
    rw [add_of_rowFor (rowFor_unkeyed hunkeyed tryUpdate)]
    exact congrArg (Except.map _) hloop

/-! ### The copy -/

/-- The value of the primary key of an object. -/
def primaryValue (schema : Schema κ) (objects : Fin n → Unmanaged κ n) (ref : Fin n) : Cell :=
  match (schema (objects ref).type).primaryKeyProperty with
  | none => .null
  | some col => (value objects ref col).primaryCell

/-- The row that has the primary key of an object. -/
def storedRow (schema : Schema κ) (objects : Fin n → Unmanaged κ n) (s : Adding κ n)
    (ref : Fin n) : Option Nat :=
  (schema (objects ref).type).primaryKeyProperty.bind fun col =>
    (s.tables (objects ref).type).findIdx? fun cells =>
      cells[col]? = some (value objects ref col).primaryCell

/-- The tables after an object was added at a row: the objects it reaches, and no
    others, have rows of their own that hold their values, new ones but for the object
    itself.  There are no other new rows, and no other old row has changed. -/
structure Copy (schema : Schema κ) (objects : Fin n → Unmanaged κ n) (s s' : Adding κ n)
    (root : Fin n) (row : Nat) : Prop where
  self : s'.managed root = some row
  managed_iff : ∀ ref, s'.managed ref ≠ none ↔
    Relation.ReflTransGen (Links schema objects) root ref
  copied : ∀ ref, s'.managed ref ≠ none → Copied schema objects s' ref
  distinct : ∀ ref ref' row, s'.managed ref = some row → s'.managed ref' = some row →
    (objects ref).type = (objects ref').type → ref = ref'
  kept : ∀ type row', row' < (s.tables type).length → (type, row') ≠ ((objects root).type, row) →
    (s'.tables type)[row']? = (s.tables type)[row']?
  fresh : ∀ ref row', ref ≠ root → s'.managed ref = some row' →
    (s.tables (objects ref).type).length ≤ row'
  onto : ∀ type row', (s.tables type).length ≤ row' → row' < (s'.tables type).length →
    ∃ ref, (objects ref).type = type ∧ s'.managed ref = some row'

omit [DecidableEq κ] in
/-- An object that a copied one links to has a row. -/
theorem Copied.links (h : Copied schema objects s ref) (hlinks : Links schema objects ref ref') :
    s.managed ref' ≠ none := by
  obtain ⟨col, prop, hprop, hvalue⟩ := hlinks
  obtain ⟨row, -, hcells⟩ := h
  obtain ⟨cells, cell, -, -, hcell⟩ := hcells col prop hprop
  rw [hvalue, Ivar.cell, Option.map_eq_some_iff] at hcell
  obtain ⟨link, hlink, -⟩ := hcell
  simp [hlink]

omit [DecidableEq κ] in
theorem Populating.copy (h : Populating schema objects start s ref row
      (properties schema objects ref).length) (hstart : ∀ ref, start.managed ref = none) :
    Copy schema objects start s ref row := by
  have hcopied : ∀ ref', s.managed ref' ≠ none → Copied schema objects s ref' := by
    intro ref' hmanaged
    by_cases hne : ref' = ref
    · subst hne
      refine ⟨row, h.self, ?_⟩
      intro col prop hprop
      exact h.cells col prop hprop (Or.inl (List.getElem?_eq_some_iff.mp hprop).1)
    · exact h.copied ref' hne (hstart ref') hmanaged
  refine ⟨h.self, ?_, hcopied, h.sound.distinct, h.kept, ?_, ?_⟩
  · intro ref'
    constructor
    · intro hmanaged
      exact h.reached ref' (hstart ref') hmanaged
    · intro hreached
      induction hreached with
      | refl => simp [h.self]
      | tail _ hlinks ih => exact (hcopied _ ih).links hlinks
  · intro ref' row' hne hmanaged
    exact h.fresh ref' row' hne (hstart ref') hmanaged
  · intro type row' hle hlt
    by_cases hown : (type, row') = ((objects ref).type, row)
    · obtain ⟨rfl, rfl⟩ := Prod.mk.inj hown
      exact ⟨ref, rfl, h.self⟩
    · obtain ⟨ref', htype, -, hmanaged⟩ := h.onto type row' hle hlt hown
      exact ⟨ref', htype, hmanaged⟩

/-- A primary key is an integer or a string, or null. -/
theorem cell_of_key (hvalid : schema.Valid) (hconforms : Conforms schema objects)
    {prop : Property κ} (hprop : (properties schema objects ref)[col]? = some prop)
    (hprimary : prop.isPrimary = true) (managed : Fin n → Option Nat) :
    (value objects ref col).cell managed = some (value objects ref col).primaryCell := by
  have hvalue := hconforms ref col prop hprop
  rcases hcase : value objects ref col with _ | number | text | target
  · rfl
  · rfl
  · rfl
  · rw [hcase] at hvalue
    have htype : prop.type = .object (objects target).type := by
      unfold validateValue at hvalue
      split at hvalue <;> simp_all
    exact absurd htype
      (hvalid.keyNoLink _ prop (List.mem_of_getElem? hprop) hprimary (objects target).type)

omit [DecidableEq κ] in
theorem key_of_primaryKeyProperty
    (hcol : (schema (objects ref).type).primaryKeyProperty = some col) :
    ∃ prop, (properties schema objects ref)[col]? = some prop ∧ prop.isPrimary = true := by
  obtain ⟨hlt, hprimary, -⟩ := List.findIdx?_eq_some_iff_getElem.mp hcol
  exact ⟨_, List.getElem?_eq_getElem hlt, hprimary⟩

theorem cellAt_of_key (hvalid : schema.Valid) (hconforms : Conforms schema objects)
    {prop : Property κ} (hprop : (properties schema objects ref)[col]? = some prop)
    (hprimary : prop.isPrimary = true) {cells : List Cell}
    (hrow : (s.tables (objects ref).type)[row]? = some cells)
    (hcell : cells[col]? = some (value objects ref col).primaryCell) (col' : Nat)
    (prop' : Property κ) (hprop' : (properties schema objects ref)[col']? = some prop')
    (hprimary' : prop'.isPrimary = true) : CellAt objects s ref row col' := by
  rw [hvalid.oneKey _ col' col prop' prop hprop' hprop hprimary' hprimary]
  exact ⟨cells, _, hrow, hcell, cell_of_key hvalid hconforms hprop hprimary s.managed⟩

theorem valueForProperty_of_conforms (hconforms : Conforms schema objects) {prop : Property κ}
    (hprop : (properties schema objects ref)[col]? = some prop) :
    valueForProperty schema objects ref prop col = .ok (value objects ref col) :=
  if_pos (hconforms ref col prop hprop)

/-- A class without a primary key, or a key that is in no row: a new row, with the key. -/
theorem rowFor_new (hvalid : schema.Valid) (hconforms : Conforms schema objects)
    (hsound : Sound schema objects s) (hnone : s.managed ref = none) (tryUpdate : Bool)
    (h : storedRow schema objects s ref = none) :
    ∃ s₁, rowFor schema objects tryUpdate ref s =
        .ok (s₁, (s.tables (objects ref).type).length) ∧
      Populating schema objects s (s₁.manage ref (s.tables (objects ref).type).length) ref
        (s.tables (objects ref).type).length 0 := by
  rcases hkey : (schema (objects ref).type).primaryKeyProperty with _ | col
  · refine ⟨(s.addEmptyRow schema (objects ref).type).1, rowFor_unkeyed hkey tryUpdate, ?_⟩
    apply Populating.begin_new hnone (hsound.manage_new ref) rfl
    · intro type row' _
      rfl
    · intro type
      rfl
    · intro col prop hprop hprimary
      rw [not_isPrimary_of_unkeyed hkey hprop] at hprimary
      cases hprimary
  · obtain ⟨prop, hprop, hprimary⟩ := key_of_primaryKeyProperty hkey
    simp only [storedRow, hkey, Option.bind_some] at h
    refine ⟨(s.addEmptyRow schema (objects ref).type).1.set (objects ref).type
      (s.tables (objects ref).type).length col (value objects ref col).primaryCell, ?_, ?_⟩
    · have hprop' : (schema (objects ref).type).persistedProperties[col]? = some prop := hprop
      simp only [rowFor, hkey, hprop', valueForProperty_of_conforms hconforms hprop]
      simp only [bind, Except.bind, h]
      rfl
    · have hnew : ((s.addEmptyRow schema (objects ref).type).1.tables
          (objects ref).type)[(s.tables (objects ref).type).length]? =
          some ((properties schema objects ref).map Property.emptyCell) := by
        simp [Adding.addEmptyRow, properties]
      apply Populating.begin_new hnone ?_ rfl
      · intro type row' hne
        exact Adding.getElem?_tables_set_of_ne hne
      · intro type
        exact Adding.length_tables_set
      · have hlt := (List.getElem?_eq_some_iff.mp hprop).1
        exact fun col' => cellAt_of_key (s := Adding.manage ref _ _) hvalid hconforms hprop hprimary
          (Adding.getElem?_tables_set_self _ _ hnew) (by simp [hlt]) col'
      · exact (hsound.manage_new ref).set _ _ _ _

omit [DecidableEq κ] in
theorem findIdx?_of_storedRow (h : storedRow schema objects s ref = some row) :
    ∃ col, (schema (objects ref).type).primaryKeyProperty = some col ∧
      ((s.tables (objects ref).type).findIdx? fun cells =>
        cells[col]? = some (value objects ref col).primaryCell) = some row := by
  rcases hkey : (schema (objects ref).type).primaryKeyProperty with _ | col
  · simp only [storedRow, hkey, Option.bind_none] at h
    cases h
  · simp only [storedRow, hkey, Option.bind_some] at h
    exact ⟨col, rfl, h⟩

/-- An update of the row with the key. -/
theorem rowFor_update (hvalid : schema.Valid) (hconforms : Conforms schema objects)
    (hsound : Sound schema objects s) (hstart : ∀ ref, s.managed ref = none)
    (h : storedRow schema objects s ref = some row) :
    rowFor schema objects true ref s = .ok (s, row) ∧
      Populating schema objects s (s.manage ref row) ref row 0 := by
  obtain ⟨col, hkey, hfind⟩ := findIdx?_of_storedRow h
  obtain ⟨prop, hprop, hprimary⟩ := key_of_primaryKeyProperty hkey
  obtain ⟨hlt, hrow, -⟩ := List.findIdx?_eq_some_iff_getElem.mp hfind
  constructor
  · have hprop' : (schema (objects ref).type).persistedProperties[col]? = some prop := hprop
    simp only [rowFor, hkey, hprop', valueForProperty_of_conforms hconforms hprop]
    simp only [bind, Except.bind, hfind]
    rfl
  · have hmanaged := hsound.manage hlt fun ref' _ => by simp [hstart ref']
    apply Populating.begin hmanaged (hstart ref) rfl
    · intro type
      exact le_rfl
    · intro type row' _ _
      rfl
    · intro type row' hle hlt'
      exact absurd hlt' (Nat.not_lt.mpr hle)
    · exact cellAt_of_key hvalid hconforms hprop hprimary (List.getElem?_eq_getElem hlt)
        (by simpa using hrow)

/-- Without an update a key that is in a row is an error. -/
theorem rowFor_existing (hconforms : Conforms schema objects)
    (h : storedRow schema objects s ref = some row) :
    rowFor schema objects false ref s = .error (.existingPrimaryKey
      (schema (objects ref).type).name (primaryValue schema objects ref)) := by
  obtain ⟨col, hkey, hfind⟩ := findIdx?_of_storedRow h
  obtain ⟨prop, hprop, -⟩ := key_of_primaryKeyProperty hkey
  have hprop' : (schema (objects ref).type).persistedProperties[col]? = some prop := hprop
  simp only [rowFor, hkey, hprop', valueForProperty_of_conforms hconforms hprop, primaryValue]
  simp only [bind, Except.bind, hfind]
  rfl

/-- The call for the root: the row it got is filled, and the objects it links to are
    added. -/
theorem addObjectToRealm_of_rowFor (hlinks : schema.LinksUnkeyed)
    (hconforms : Conforms schema objects) (hstart : ∀ ref, s.managed ref = none)
    {tryUpdate : Bool} {root : Fin n} {s₁ : Adding κ n}
    (hrowFor : rowFor schema objects tryUpdate root s = .ok (s₁, row))
    (hbegin : Populating schema objects s (s₁.manage root row) root row 0) :
    ∃ s', addObjectToRealm schema objects tryUpdate root s = .ok (s', row) ∧
      Copy schema objects s s' root row := by
  obtain ⟨fuel, rfl⟩ : ∃ fuel, n = fuel + 1 := ⟨n - 1, by have := root.isLt; omega⟩
  have hcard : (unmanaged (s₁.manage root row)).card ≤ fuel := by
    have hproper : unmanaged (s₁.manage root row) ⊂ Finset.univ := by
      refine Finset.ssubset_univ_iff.mpr fun huniv => ?_
      have hself := mem_unmanaged.mp (huniv ▸ Finset.mem_univ root)
      rw [hbegin.self] at hself
      cases hself
    have hlt := Finset.card_lt_card hproper
    rw [Finset.card_univ, Fintype.card_fin] at hlt
    omega
  obtain ⟨s', hloop, hend⟩ := populate_spec (adds hlinks hconforms tryUpdate fuel) hlinks hconforms
    (properties schema objects root) [] rfl hbegin hcard
  refine ⟨s', ?_, hend.copy hstart⟩
  rw [addObjectToRealm, add_of_rowFor hrowFor]
  exact congrArg (Except.map _) hloop

/-- It is a copy, unless the key is in a row and it is not an update. -/
theorem addObjectToRealm_ok (hvalid : schema.Valid) (hlinks : schema.LinksUnkeyed)
    (hconforms : Conforms schema objects) (hsound : Sound schema objects s)
    (hstart : ∀ ref, s.managed ref = none) (tryUpdate : Bool) (root : Fin n)
    (h : tryUpdate = true ∨ storedRow schema objects s root = none) :
    ∃ s' row, addObjectToRealm schema objects tryUpdate root s = .ok (s', row) ∧
      Copy schema objects s s' root row := by
  rcases hstored : storedRow schema objects s root with _ | row
  · obtain ⟨s₁, hrowFor, hbegin⟩ :=
      rowFor_new hvalid hconforms hsound (hstart root) tryUpdate hstored
    obtain ⟨s', hadd, hcopy⟩ := addObjectToRealm_of_rowFor hlinks hconforms hstart hrowFor hbegin
    exact ⟨s', _, hadd, hcopy⟩
  · rw [hstored] at h
    rcases h with rfl | hnone
    · obtain ⟨hrowFor, hbegin⟩ := rowFor_update hvalid hconforms hsound hstart hstored
      obtain ⟨s', hadd, hcopy⟩ := addObjectToRealm_of_rowFor hlinks hconforms hstart hrowFor hbegin
      exact ⟨s', row, hadd, hcopy⟩
    · cases hnone

theorem addObjectToRealm_existing (hconforms : Conforms schema objects) {root : Fin n}
    (h : storedRow schema objects s root = some row) :
    addObjectToRealm schema objects false root s = .error (.existingPrimaryKey
      (schema (objects root).type).name (primaryValue schema objects root)) := by
  obtain ⟨fuel, rfl⟩ : ∃ fuel, n = fuel + 1 := ⟨n - 1, by have := root.isLt; omega⟩
  rw [addObjectToRealm, add_of_rowFor_error (rowFor_existing hconforms h)]

/-- Whatever it returns is a copy. -/
theorem copy_of_addObjectToRealm (hvalid : schema.Valid) (hlinks : schema.LinksUnkeyed)
    (hconforms : Conforms schema objects) (hsound : Sound schema objects s)
    (hstart : ∀ ref, s.managed ref = none) {tryUpdate : Bool} {root : Fin n}
    (h : addObjectToRealm schema objects tryUpdate root s = .ok (s', row)) :
    Copy schema objects s s' root row := by
  have hcase : tryUpdate = true ∨ storedRow schema objects s root = none := by
    by_contra hnot
    rw [not_or, Bool.not_eq_true] at hnot
    obtain ⟨rfl, hstored⟩ := hnot
    obtain ⟨row₀, hrow₀⟩ := Option.ne_none_iff_exists'.mp hstored
    rw [addObjectToRealm_existing hconforms hrow₀] at h
    cases h
  obtain ⟨s₁, row₁, hadd, hcopy⟩ :=
    addObjectToRealm_ok hvalid hlinks hconforms hsound hstart tryUpdate root hcase
  rw [h] at hadd
  cases hadd
  exact hcopy

/-- **Adding an object copies the graph it reaches.**  Over objects that conform to a
    schema in which no class with a primary key is linked to, and none of which has a
    row yet, the recursion ends.  It fails exactly when the primary key of the object
    has a row and it is not an update, and otherwise it leaves a copy. -/
theorem addObjectToRealm_copies (hvalid : schema.Valid) (hlinks : schema.LinksUnkeyed)
    (hconforms : Conforms schema objects) (hsound : Sound schema objects s)
    (hstart : ∀ ref, s.managed ref = none) (tryUpdate : Bool) (root : Fin n) :
    if tryUpdate = true ∨ storedRow schema objects s root = none then
      ∃ s' row, addObjectToRealm schema objects tryUpdate root s = .ok (s', row) ∧
        Copy schema objects s s' root row
    else
      addObjectToRealm schema objects tryUpdate root s = .error (.existingPrimaryKey
        (schema (objects root).type).name (primaryValue schema objects root)) := by
  split
  · rename_i h
    exact addObjectToRealm_ok hvalid hlinks hconforms hsound hstart tryUpdate root h
  · rename_i h
    rw [not_or, Bool.not_eq_true] at h
    obtain ⟨rfl, hstored⟩ := h
    obtain ⟨row, hrow⟩ := Option.ne_none_iff_exists'.mp hstored
    exact addObjectToRealm_existing hconforms hrow

/-- A class whose objects link to one another. -/
def nodeSchema : Schema Unit := fun _ =>
  ⟨"Node", [⟨"value", .int, false, false⟩, ⟨"next", .object (), false, true⟩]⟩

/-- Two nodes that link to each other. -/
def twoNodes (ref : Fin 2) : Unmanaged Unit 2 := ⟨(), [.int 0, .object (ref + 1)]⟩

theorem nodeSchema_valid : nodeSchema.Valid := by
  constructor
  · intro type col col' prop prop' hprop _ hprimary _
    have hmem := List.mem_of_getElem? hprop
    simp only [nodeSchema, List.mem_cons, List.not_mem_nil, or_false] at hmem
    rcases hmem with rfl | rfl <;> cases hprimary
  · intro type prop hmem hprimary
    simp only [nodeSchema, List.mem_cons, List.not_mem_nil, or_false] at hmem
    rcases hmem with rfl | rfl <;> cases hprimary

theorem twoNodes_conforms : Conforms nodeSchema twoNodes := by
  intro ref col prop hprop
  match col, hprop with
  | 0, hprop => cases hprop; rfl
  | 1, hprop => cases hprop; rfl

omit [DecidableEq κ] in
/-- Nothing has a row in empty tables. -/
theorem sound_empty (schema : Schema κ) (objects : Fin n → Unmanaged κ n) :
    Sound schema objects ⟨fun _ => [], fun _ => none⟩ := by
  refine ⟨?_, ?_, ?_⟩
  · intro type row cells hcells
    cases hcells
  · intro ref row hmanaged
    cases hmanaged
  · intro ref ref' row hmanaged
    cases hmanaged

/-- The recursion ends on a cycle, and the copy is a cycle again. -/
theorem addObjectToRealm_copies_twoNodes :
    ∃ s' row, addObjectToRealm nodeSchema twoNodes false 0 ⟨fun _ => [], fun _ => none⟩ =
        .ok (s', row) ∧
      Copy nodeSchema twoNodes ⟨fun _ => [], fun _ => none⟩ s' 0 row :=
  addObjectToRealm_copies nodeSchema_valid (fun _ _ _ _ _ => rfl) twoNodes_conforms
    (sound_empty nodeSchema twoNodes) (fun _ => rfl) false 0

end ObjectCreate

end W3Stats

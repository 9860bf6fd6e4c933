import Mathlib.Tactic.FinCases
import W3Stats.CopiedObjects
import W3Stats.Realm

/-!
# Adding a player

`Object::create` at the classes of the app.  `Group.createPlayer` writes out what
the loops and the recursion through links do for a player with its matches; here
the two are run side by side, from the `DescObject`s up to the `PlayerObject`.
-/

namespace W3Stats

open ObjectCreate

/-! ### The data model as a schema -/

inductive ClassName where
  | playerObject
  | statsObject
  | descObject
deriving DecidableEq, Repr

def nameProperty : Property ClassName := ⟨"name", .string, true, false⟩
def raceProperty : Property ClassName := ⟨"race", .string, false, false⟩
def statsProperty : Property ClassName := ⟨"stats", .object .statsObject, false, true⟩
def descProperty (name : String) : Property ClassName := ⟨name, .object .descObject, false, true⟩
def countProperty (name : String) : Property ClassName := ⟨name, .int, false, false⟩

def dataModel : Schema ClassName
  | .playerObject => ⟨"PlayerObject", [nameProperty, statsProperty, raceProperty]⟩
  | .statsObject => ⟨"StatsObject", [descProperty "vsHuman", descProperty "vsElf",
      descProperty "vsOrc", descProperty "vsUndead"]⟩
  | .descObject => ⟨"DescObject", [countProperty "wins", countProperty "losses"]⟩

/-! ### The three tables -/

def linkCell : Option Nat → Cell
  | none => .null
  | some row => .link row

def DescObject.cells (value : DescObject) : List Cell := [.int value.wins, .int value.losses]

def StatsRow.cells (r : StatsRow) : List Cell :=
  [linkCell r.vsHuman, linkCell r.vsElf, linkCell r.vsOrc, linkCell r.vsUndead]

def PlayerRow.cells (r : PlayerRow) : List Cell :=
  [.string r.name, linkCell r.stats, .string r.race]

def Group.encode (group : Group) : ClassName → List (List Cell)
  | .playerObject => group.playerRows.map PlayerRow.cells
  | .statsObject => group.statsRows.map StatsRow.cells
  | .descObject => group.descRows.map DescObject.cells

/-! ### The objects outside the Realm -/

section Unmanaged

variable {n : Nat}

def linkIvar {α : Type} (ref : Fin n) : Option α → Ivar n
  | none => .null
  | some _ => .object ref

def DescObject.unmanaged (value : DescObject) : Unmanaged ClassName n :=
  ⟨.descObject, [.int value.wins, .int value.losses]⟩

def StatsObject.unmanaged (value : StatsObject) (human elf orc undead : Fin n) :
    Unmanaged ClassName n :=
  ⟨.statsObject, [linkIvar human value.vsHuman, linkIvar elf value.vsElf,
    linkIvar orc value.vsOrc, linkIvar undead value.vsUndead]⟩

def PlayerObject.unmanaged (value : PlayerObject) (stats : Fin n) : Unmanaged ClassName n :=
  ⟨.playerObject, [.string value.name, linkIvar stats value.stats, .string value.race]⟩

end Unmanaged

def DescObject.default : DescObject := ⟨0, 0⟩
def StatsObject.default : StatsObject := ⟨none, none, none, none⟩

/-- A player and the objects it links to, each one an object of its own. -/
def PlayerObject.graph (value : PlayerObject) : Fin 6 → Unmanaged ClassName 6 :=
  let stats := value.stats.getD .default
  fun
    | 0 => value.unmanaged 1
    | 1 => stats.unmanaged 2 3 4 5
    | 2 => (stats.vsHuman.getD .default).unmanaged
    | 3 => (stats.vsElf.getD .default).unmanaged
    | 4 => (stats.vsOrc.getD .default).unmanaged
    | 5 => (stats.vsUndead.getD .default).unmanaged

/-- The player itself in the graph. -/
def PlayerObject.root : Fin 6 := 0

/-! ### The operations on the tables -/

namespace Group

variable {n : Nat} {group : Group} {managed : Fin n → Option Nat} {row : Nat}

theorem update_encode_desc (group : Group) (rows : List DescObject) :
    Function.update group.encode .descObject (rows.map DescObject.cells) =
      encode { group with descRows := rows } := by
  funext type
  cases type <;> rfl

theorem update_encode_stats (group : Group) (rows : List StatsRow) :
    Function.update group.encode .statsObject (rows.map StatsRow.cells) =
      encode { group with statsRows := rows } := by
  funext type
  cases type <;> rfl

theorem update_encode_player (group : Group) (rows : List PlayerRow) :
    Function.update group.encode .playerObject (rows.map PlayerRow.cells) =
      encode { group with playerRows := rows } := by
  funext type
  cases type <;> rfl

theorem map_modify_of {α β : Type} {cells : α → β} {f : α → α} {g : β → β}
    (h : ∀ r, g (cells r) = cells (f r)) (rows : List α) (row : Nat) :
    (rows.map cells).modify row g = (rows.modify row f).map cells := by
  apply List.ext_getElem?
  intro i
  rw [List.getElem?_modify, List.getElem?_map, List.getElem?_map, List.getElem?_modify]
  rcases rows[i]? with _ | r
  · rfl
  · by_cases hi : row = i <;> simp [hi, h]

theorem set_desc (col : Nat) (cell : Cell) {f : DescObject → DescObject}
    (hf : ∀ r : DescObject, r.cells.set col cell = (f r).cells) :
    Adding.set .descObject row col cell ⟨group.encode, managed⟩ =
      ⟨encode { group with descRows := group.descRows.modify row f }, managed⟩ := by
  rw [← update_encode_desc group (group.descRows.modify row f),
    ← map_modify_of (g := fun cells => cells.set col cell) hf]
  rfl

theorem set_stats (col : Nat) (cell : Cell) {f : StatsRow → StatsRow}
    (hf : ∀ r : StatsRow, r.cells.set col cell = (f r).cells) :
    Adding.set .statsObject row col cell ⟨group.encode, managed⟩ =
      ⟨(group.setStatsRow row f).encode, managed⟩ := by
  rw [setStatsRow, ← update_encode_stats group (group.statsRows.modify row f),
    ← map_modify_of (g := fun cells => cells.set col cell) hf]
  rfl

theorem set_player (col : Nat) (cell : Cell) {f : PlayerRow → PlayerRow}
    (hf : ∀ r : PlayerRow, r.cells.set col cell = (f r).cells) :
    Adding.set .playerObject row col cell ⟨group.encode, managed⟩ =
      ⟨(group.setPlayerRow row f).encode, managed⟩ := by
  rw [setPlayerRow, ← update_encode_player group (group.playerRows.modify row f),
    ← map_modify_of (g := fun cells => cells.set col cell) hf]
  rfl

theorem addEmptyRow_desc :
    Adding.addEmptyRow dataModel .descObject ⟨group.encode, managed⟩ =
      (⟨encode { group with descRows := group.descRows ++ [.default] }, managed⟩,
        group.descRows.length) := by
  rw [← update_encode_desc group (group.descRows ++ [DescObject.default]), List.map_append]
  simp only [Adding.addEmptyRow, encode, List.length_map]
  rfl

theorem addEmptyRow_stats :
    Adding.addEmptyRow dataModel .statsObject ⟨group.encode, managed⟩ =
      (⟨encode { group with statsRows := group.statsRows ++ [⟨none, none, none, none⟩] }, managed⟩,
        group.statsRows.length) := by
  rw [← update_encode_stats group (group.statsRows ++ [StatsRow.mk none none none none]),
    List.map_append]
  simp only [Adding.addEmptyRow, encode, List.length_map]
  rfl

theorem addEmptyRow_player :
    Adding.addEmptyRow dataModel .playerObject ⟨group.encode, managed⟩ =
      (⟨encode { group with playerRows := group.playerRows ++ [⟨"", none, ""⟩] }, managed⟩,
        group.playerRows.length) := by
  rw [← update_encode_player group (group.playerRows ++ [PlayerRow.mk "" none ""]), List.map_append]
  simp only [Adding.addEmptyRow, encode, List.length_map]
  rfl

end Group

/-! ### From the `DescObject`s up -/

section Create

variable {n : Nat} {objects : Fin n → Unmanaged ClassName n} {managed : Fin n → Option Nat}
  {group : Group} {ref : Fin n} {tryUpdate : Bool} {fuel : Nat}

theorem add_desc {value : DescObject} (hobject : objects ref = value.unmanaged) :
    add dataModel objects tryUpdate (fuel + 1) ref ⟨group.encode, managed⟩ =
      .ok (⟨(group.createDesc value).1.encode,
          Function.update managed ref (some group.descRows.length)⟩,
        group.descRows.length) := by
  have htype : (objects ref).type = .descObject := by rw [hobject]; rfl
  have hkey : (dataModel (objects ref).type).primaryKeyProperty = none := by rw [htype]; rfl
  have hwins : (objects ref).ivars.getD 0 .null = .int value.wins := by rw [hobject]; rfl
  have hlosses : (objects ref).ivars.getD 1 .null = .int value.losses := by rw [hobject]; rfl
  have hrow := rowFor_unkeyed (s := ⟨group.encode, managed⟩) hkey tryUpdate
  rw [htype, Group.addEmptyRow_desc] at hrow
  rw [add_of_rowFor hrow, htype]
  rw [show (dataModel .descObject).persistedProperties =
    [countProperty "wins", countProperty "losses"] from rfl]
  rw [populate_value rfl (by rw [hwins]; rfl) (by rw [hwins]; rfl)]
  rw [populate_value rfl (by rw [hlosses]; rfl) (by rw [hlosses]; rfl)]
  simp only [populate, htype, Adding.manage]
  rw [Group.set_desc _ _ (f := fun r => { r with wins := value.wins }) fun _ => rfl]
  rw [Group.set_desc _ _ (f := fun r => { r with losses := value.losses }) fun _ => rfl]
  simp only [KeyedTable.modify_length_append]
  rfl

theorem validateValue_linkIvar {α : Type} {value : Option α} {target : Fin n}
    {prop : Property ClassName} (hnullable : prop.isNullable = true)
    (htype : prop.type = .object (objects target).type) :
    validateValue objects (linkIvar target value) prop = true := by
  cases value with
  | none => exact hnullable
  | some value => simp [validateValue, linkIvar, htype]

/-- The link to a `DescObject`: null for nil, else the row that the object gets. -/
theorem populate_desc (value : Option DescObject) {name : String}
    {props : List (Property ClassName)} {target : Fin n} {row col : Nat}
    {f : Option Nat → StatsRow → StatsRow} {group' : Group}
    (htype : (objects ref).type = .statsObject)
    (hvalue : (objects ref).ivars.getD col .null = linkIvar target value)
    (hobject : objects target = (value.getD .default).unmanaged) (hfree : managed target = none)
    (hf : ∀ link (r : StatsRow), r.cells.set col (linkCell link) = (f link r).cells)
    (hrest : ∀ managed', (∀ ref, ref ≠ target → managed' ref = managed ref) →
      ∃ managed'', populate dataModel objects (add dataModel objects tryUpdate (fuel + 1)) ref row
          props (col + 1)
          ⟨((group.linkDesc value).1.setStatsRow row (f (group.linkDesc value).2)).encode,
            managed'⟩ =
        .ok ⟨group'.encode, managed''⟩) :
    ∃ managed'', populate dataModel objects (add dataModel objects tryUpdate (fuel + 1)) ref row
        (descProperty name :: props) col ⟨group.encode, managed⟩ =
      .ok ⟨group'.encode, managed''⟩ := by
  have hvalid : validateValue objects ((objects ref).ivars.getD col .null)
      (descProperty name) = true := by
    rw [hvalue]
    exact validateValue_linkIvar rfl (by rw [hobject]; rfl)
  cases value with
  | none =>
    obtain ⟨managed'', hdone⟩ := hrest managed fun _ _ => rfl
    refine ⟨managed'', ?_⟩
    rw [← hdone, ← Group.set_stats _ _ (hf _)]
    exact populate_value rfl hvalid (by rw [hvalue, htype]; rfl)
  | some value =>
    obtain ⟨managed'', hdone⟩ :=
      hrest (Function.update managed target (some group.descRows.length))
        fun ref hne => Function.update_of_ne hne _ _
    refine ⟨managed'', ?_⟩
    rw [← hdone, ← Group.set_stats _ _ (hf _)]
    refine populate_value rfl hvalid ?_
    simp only [hvalue, linkIvar, setPropertyValue, unboxRow, hfree, htype]
    rw [add_desc hobject]
    rfl

end Create

section Player

variable {managed : Fin 6 → Option Nat} {group : Group} {tryUpdate : Bool} {fuel : Nat}

/-- The four links are set in declaration order. -/
theorem add_stats (group : Group) (tryUpdate : Bool) (fuel : Nat) {value : PlayerObject}
    {stats : StatsObject} (hstats : value.stats = some stats)
    (hfree : ∀ ref, ref ≠ 0 → managed ref = none) :
    ∃ managed', add dataModel value.graph tryUpdate (fuel + 2) 1 ⟨group.encode, managed⟩ =
      .ok (⟨(group.createStats stats).1.encode, managed'⟩, group.statsRows.length) := by
  have hobject : value.graph 1 = stats.unmanaged 2 3 4 5 := by
    simp only [PlayerObject.graph, hstats, Option.getD_some]
  have hhuman : value.graph 2 = (stats.vsHuman.getD .default).unmanaged := by
    simp only [PlayerObject.graph, hstats, Option.getD_some]
  have helf : value.graph 3 = (stats.vsElf.getD .default).unmanaged := by
    simp only [PlayerObject.graph, hstats, Option.getD_some]
  have horc : value.graph 4 = (stats.vsOrc.getD .default).unmanaged := by
    simp only [PlayerObject.graph, hstats, Option.getD_some]
  have hundead : value.graph 5 = (stats.vsUndead.getD .default).unmanaged := by
    simp only [PlayerObject.graph, hstats, Option.getD_some]
  have htype : (value.graph 1).type = .statsObject := by rw [hobject]; rfl
  have hkey : (dataModel (value.graph 1).type).primaryKeyProperty = none := by rw [htype]; rfl
  have hrow := rowFor_unkeyed (s := ⟨group.encode, managed⟩) hkey tryUpdate
  rw [htype, Group.addEmptyRow_stats] at hrow
  rw [add_of_rowFor hrow, htype]
  rw [show (dataModel .statsObject).persistedProperties =
    [descProperty "vsHuman", descProperty "vsElf", descProperty "vsOrc", descProperty "vsUndead"]
      from rfl]
  simp only [Adding.manage]
  suffices hloop : ∃ managed', populate dataModel value.graph
      (add dataModel value.graph tryUpdate (fuel + 1)) 1 group.statsRows.length
      [descProperty "vsHuman", descProperty "vsElf", descProperty "vsOrc", descProperty "vsUndead"]
      0 ⟨Group.encode { group with statsRows := group.statsRows ++ [⟨none, none, none, none⟩] },
        Function.update managed 1 (some group.statsRows.length)⟩ =
      .ok ⟨(group.createStats stats).1.encode, managed'⟩ by
    obtain ⟨managed', hloop⟩ := hloop
    exact ⟨managed', by rw [hloop]; rfl⟩
  refine populate_desc stats.vsHuman (f := fun link r => { r with vsHuman := link }) htype
    (by rw [hobject]; rfl) hhuman (by simp [hfree]) (fun _ _ => rfl) fun managed₁ hmanaged₁ => ?_
  refine populate_desc stats.vsElf (f := fun link r => { r with vsElf := link }) htype
    (by rw [hobject]; rfl) helf ?_ (fun _ _ => rfl) fun managed₂ hmanaged₂ => ?_
  · simp [hmanaged₁, hfree]
  refine populate_desc stats.vsOrc (f := fun link r => { r with vsOrc := link }) htype
    (by rw [hobject]; rfl) horc ?_ (fun _ _ => rfl) fun managed₃ hmanaged₃ => ?_
  · simp [hmanaged₂, hmanaged₁, hfree]
  refine populate_desc stats.vsUndead (f := fun link r => { r with vsUndead := link }) htype
    (by rw [hobject]; rfl) hundead ?_ (fun _ _ => rfl) fun managed₄ _ => ⟨managed₄, ?_⟩
  · simp [hmanaged₃, hmanaged₂, hmanaged₁, hfree]
  rfl

theorem findIdx?_encode (group : Group) (name : String) :
    ((group.encode .playerObject).findIdx? fun cells =>
        cells[0]? = some (Ivar.string (n := 6) name).primaryCell) =
      KeyedTable.findFirst PlayerRow.name name group.playerRows := by
  rw [KeyedTable.findFirst, Group.encode, List.findIdx?_map]
  congr 1
  funext r
  simp [PlayerRow.cells, Ivar.primaryCell]

theorem populate_race {value : PlayerObject} {row : Nat}
    {add : Fin 6 → Adding ClassName 6 → Except CreateError (Adding ClassName 6 × Nat)} :
    populate dataModel value.graph add 0 row [raceProperty] 2 ⟨group.encode, managed⟩ =
      .ok ⟨(group.setPlayerRow row fun r => { r with race := value.race }).encode, managed⟩ := by
  rw [← Group.set_player 2 (.string value.race) fun _ => rfl]
  exact populate_value rfl rfl rfl

/-- The link and the race are set; the name is the primary key and is in the row. -/
theorem populate_player (fuel : Nat) {value : PlayerObject} {row : Nat}
    (hfree : ∀ ref, ref ≠ 0 → managed ref = none) :
    ∃ managed', populate dataModel value.graph (add dataModel value.graph tryUpdate (fuel + 2)) 0
        row [nameProperty, statsProperty, raceProperty] 0 ⟨group.encode, managed⟩ =
      .ok ⟨(((group.linkStats value.stats).1.setPlayerRow row fun r =>
          { r with stats := (group.linkStats value.stats).2 }).setPlayerRow row fun r =>
          { r with race := value.race }).encode, managed'⟩ := by
  rw [populate_primary rfl]
  have hvalid : validateValue value.graph ((value.graph 0).ivars.getD 1 .null) statsProperty =
      true := validateValue_linkIvar rfl rfl
  have hlink : (value.graph 0).ivars.getD 1 .null = linkIvar 1 value.stats := rfl
  rcases hstats : value.stats with _ | stats
  · refine ⟨managed, ?_⟩
    rw [← populate_race, ← Group.set_player 1 (linkCell none) fun _ => rfl]
    apply populate_value rfl hvalid
    rw [hlink, hstats]
    rfl
  · obtain ⟨managed', hadd⟩ := add_stats group tryUpdate fuel hstats hfree
    refine ⟨managed', ?_⟩
    rw [← populate_race,
      ← Group.set_player 1 (linkCell (some group.statsRows.length)) fun _ => rfl]
    apply populate_value rfl hvalid
    rw [hlink, hstats]
    simp only [linkIvar, setPropertyValue, unboxRow, hfree 1 (by decide), hadd]
    rfl

theorem find_player (group : Group) (managed : Fin 6 → Option Nat) (value : PlayerObject)
    (tryUpdate : Bool) :
    rowFor dataModel value.graph tryUpdate 0 ⟨group.encode, managed⟩ =
      match KeyedTable.findFirst PlayerRow.name value.name group.playerRows with
      | none =>
          .ok (⟨Group.encode { group with
              playerRows := group.playerRows ++ [⟨value.name, none, ""⟩] }, managed⟩,
            group.playerRows.length)
      | some row =>
          if tryUpdate then .ok (⟨group.encode, managed⟩, row)
          else .error (.existingPrimaryKey "PlayerObject" (.string value.name)) := by
  have hread : valueForProperty dataModel value.graph 0 nameProperty 0 = .ok (.string value.name) :=
    rfl
  have htype : (value.graph 0).type = .playerObject := rfl
  have hkey : (dataModel .playerObject).primaryKeyProperty = some 0 := rfl
  have hprop : (dataModel .playerObject).persistedProperties[0]? = some nameProperty := rfl
  simp only [rowFor, htype, hkey, hprop, hread, bind, Except.bind]
  rw [findIdx?_encode]
  rcases KeyedTable.findFirst PlayerRow.name value.name group.playerRows with _ | row
  · rw [Group.addEmptyRow_player]
    dsimp only
    rw [Group.set_player _ _ (f := fun r => { r with name := value.name }) fun _ => rfl]
    simp only [Group.setPlayerRow, KeyedTable.modify_length_append]
    rfl
  · rfl

theorem addObjectToRealm_of_find {value : PlayerObject} {group' : Group} {row : Nat}
    (hrow : rowFor dataModel value.graph tryUpdate 0 ⟨group.encode, fun _ => none⟩ =
      .ok (⟨group'.encode, fun _ => none⟩, row)) :
    ∃ managed, addObjectToRealm dataModel value.graph tryUpdate 0 ⟨group.encode, fun _ => none⟩ =
      .ok (⟨(((group'.linkStats value.stats).1.setPlayerRow row fun r =>
          { r with stats := (group'.linkStats value.stats).2 }).setPlayerRow row fun r =>
          { r with race := value.race }).encode, managed⟩, row) := by
  have hfree : ∀ ref : Fin 6, ref ≠ 0 →
      Function.update (fun _ => none) 0 (some row) ref = none := by
    intro ref hne
    rw [Function.update_of_ne hne]
  obtain ⟨managed, hloop⟩ := populate_player 3 hfree
  refine ⟨managed, ?_⟩
  rw [addObjectToRealm, add_of_rowFor hrow]
  exact congrArg (Except.map _) hloop

theorem addObjectToRealm_of_createPlayer {group' : Group} {value : PlayerObject}
    (h : group.createPlayer value tryUpdate = .ok group') :
    ∃ managed row, addObjectToRealm dataModel value.graph tryUpdate 0
      ⟨group.encode, fun _ => none⟩ = .ok (⟨group'.encode, managed⟩, row) := by
  have hrow := find_player group (fun _ => none) value tryUpdate
  simp only [Group.createPlayer] at h
  rcases hfind : KeyedTable.findFirst PlayerRow.name value.name group.playerRows with _ | row
  · rw [hfind] at hrow h
    obtain ⟨managed, hadd⟩ := addObjectToRealm_of_find hrow
    cases h
    exact ⟨managed, group.playerRows.length, hadd⟩
  · rw [hfind] at hrow h
    by_cases hupdate : tryUpdate
    · dsimp only at hrow h
      rw [if_pos hupdate] at hrow h
      obtain ⟨managed, hadd⟩ := addObjectToRealm_of_find hrow
      cases h
      exact ⟨managed, row, hadd⟩
    · dsimp only at h
      rw [if_neg hupdate] at h
      cases h

theorem addObjectToRealm_of_createPlayer_error {value : PlayerObject} {e : NSException}
    (h : group.createPlayer value tryUpdate = .error e) :
    e = .existingPrimaryKey "PlayerObject" value.name ∧
      addObjectToRealm dataModel value.graph tryUpdate 0 ⟨group.encode, fun _ => none⟩ =
        .error (.existingPrimaryKey "PlayerObject" (.string value.name)) := by
  have hrow := find_player group (fun _ => none) value tryUpdate
  simp only [Group.createPlayer] at h
  rcases hfind : KeyedTable.findFirst PlayerRow.name value.name group.playerRows with _ | row
  · rw [hfind] at h
    cases h
  · rw [hfind] at hrow h
    by_cases hupdate : tryUpdate
    · dsimp only at h
      rw [if_pos hupdate] at h
      cases h
    · dsimp only at hrow h
      rw [if_neg hupdate] at hrow h
      cases h
      refine ⟨rfl, ?_⟩
      rw [addObjectToRealm, add_of_rowFor_error hrow]

/-- **The three tables hold what the general code puts into them.**  Adding a player
    through its schema, property by property, does to the encoded tables what
    `createPlayer` does to the tables, and throws when that throws. -/
theorem addObjectToRealm_createPlayer (group : Group) (value : PlayerObject) (tryUpdate : Bool) :
    match group.createPlayer value tryUpdate with
    | .ok group' => ∃ managed row, addObjectToRealm dataModel value.graph tryUpdate 0
        ⟨group.encode, fun _ => none⟩ = .ok (⟨group'.encode, managed⟩, row)
    | .error e => e = .existingPrimaryKey "PlayerObject" value.name ∧
        addObjectToRealm dataModel value.graph tryUpdate 0 ⟨group.encode, fun _ => none⟩ =
          .error (.existingPrimaryKey "PlayerObject" (.string value.name)) := by
  cases hcreate : group.createPlayer value tryUpdate with
  | ok group' => exact addObjectToRealm_of_createPlayer hcreate
  | error e => exact addObjectToRealm_of_createPlayer_error hcreate

/-! ### The copy of a player -/

theorem dataModel_valid : dataModel.Valid := by
  constructor
  · intro type col col' prop prop' hprop hprop' hprimary hprimary'
    have hkey : ∀ (col : Nat) prop, (dataModel type).persistedProperties[col]? = some prop →
        prop.isPrimary = true → col = 0 := by
      intro col prop hprop hprimary
      match type, col with
      | _, 0 => rfl
      | .playerObject, 1 | .playerObject, 2 | .statsObject, 1 | .statsObject, 2 | .statsObject, 3
      | .descObject, 1 => cases hprop; cases hprimary
      | .playerObject, _ + 3 | .statsObject, _ + 4 | .descObject, _ + 2 => cases hprop
    rw [hkey col prop hprop hprimary, hkey col' prop' hprop' hprimary']
  · intro type prop hmem hprimary target
    have hstring : prop.type = .string := by
      revert prop
      cases type <;> decide
    simp [hstring]

/-- No class links to `PlayerObject`. -/
theorem dataModel_linksUnkeyed : dataModel.LinksUnkeyed := by
  intro type prop hmem target htarget
  have hne : prop.type ≠ .object .playerObject := by
    clear htarget
    revert prop
    cases type <;> decide
  cases target with
  | playerObject => exact absurd htarget hne
  | statsObject => rfl
  | descObject => rfl

theorem DescObject.conforms {n : Nat} {objects : Fin n → Unmanaged ClassName n} {ref : Fin n}
    {desc : DescObject} (hobject : objects ref = desc.unmanaged) (col : Nat)
    (prop : Property ClassName) (hprop : (properties dataModel objects ref)[col]? = some prop) :
    validateValue objects (ObjectCreate.value objects ref col) prop = true := by
  rw [ObjectCreate.value, hobject]
  rw [properties, hobject] at hprop
  rcases col with _ | _ | col
  · cases hprop
    rfl
  · cases hprop
    rfl
  · cases hprop

theorem conforms_graph (value : PlayerObject) : Conforms dataModel value.graph := by
  intro ref col prop hprop
  fin_cases ref
  · rcases col with _ | _ | _ | col <;> cases hprop
    · rfl
    · exact validateValue_linkIvar rfl rfl
    · rfl
  · rcases col with _ | _ | _ | _ | col <;> cases hprop <;> exact validateValue_linkIvar rfl rfl
  · exact DescObject.conforms rfl col prop hprop
  · exact DescObject.conforms rfl col prop hprop
  · exact DescObject.conforms rfl col prop hprop
  · exact DescObject.conforms rfl col prop hprop

theorem Group.sound_encode (group : Group) {n : Nat} (objects : Fin n → Unmanaged ClassName n) :
    Sound dataModel objects ⟨group.encode, fun _ => none⟩ := by
  refine ⟨?_, ?_, ?_⟩
  · intro type row cells hcells
    have hmem := List.mem_of_getElem? hcells
    cases type <;> obtain ⟨r, -, rfl⟩ := List.mem_map.mp hmem <;> rfl
  · intro ref row hmanaged
    cases hmanaged
  · intro ref ref' row hmanaged
    cases hmanaged

/-- The copy of a player: its own row, and rows of their own for the objects it reaches. -/
theorem createPlayer_copies {group group' : Group} {value : PlayerObject} {tryUpdate : Bool}
    (h : group.createPlayer value tryUpdate = .ok group') :
    ∃ managed row, Copy dataModel value.graph ⟨group.encode, fun _ => none⟩
      ⟨group'.encode, managed⟩ 0 row := by
  obtain ⟨managed, row, hadd⟩ := addObjectToRealm_of_createPlayer h
  exact ⟨managed, row, copy_of_addObjectToRealm dataModel_valid dataModel_linksUnkeyed
    (conforms_graph value) (group.sound_encode value.graph) (fun _ => rfl) hadd⟩

end Player

end W3Stats

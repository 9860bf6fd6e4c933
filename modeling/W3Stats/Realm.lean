import W3Stats.KeyedTable
import W3Stats.Records

/-!
# Realm as the app uses it

Three tables, one for each class of the data model, and the transaction stage of
the one shared `Realm`.  A row of a linking class holds the position of the row
it links to.  Links are weak, so deleting a row removes that row only, and no
class links to `PlayerObject`, so moving its last row leaves no link to adjust.

Committing is done by the precompiled core.  What it did is a parameter of the
model (`CommitOutcome`), chosen by the environment at each commit.
-/

namespace W3Stats

/-! ### The data model classes -/

@[ext] structure DescObject where
  wins : SwiftInt
  losses : SwiftInt
deriving DecidableEq, Repr

/-- A `StatsObject` outside a Realm, or one read through its links. -/
structure StatsObject where
  vsHuman : Option DescObject
  vsElf : Option DescObject
  vsOrc : Option DescObject
  vsUndead : Option DescObject
deriving DecidableEq, Repr

/-- A `PlayerObject` outside a Realm, or one read through its links. -/
structure PlayerObject where
  name : String
  stats : Option StatsObject
  race : String
deriving DecidableEq, Repr

/-! ### Tables -/

structure StatsRow where
  vsHuman : Option Nat
  vsElf : Option Nat
  vsOrc : Option Nat
  vsUndead : Option Nat
deriving DecidableEq, Repr

structure PlayerRow where
  name : String
  stats : Option Nat
  race : String
deriving DecidableEq, Repr

/-- The tables of the Realm file. -/
structure Group where
  playerRows : List PlayerRow
  statsRows : List StatsRow
  descRows : List DescObject
deriving DecidableEq, Repr

namespace Group

def empty : Group := ⟨[], [], []⟩

/-! ### `Object::create` -/

/-- A `DescObject` has no primary key: it always gets a new row. -/
def createDesc (group : Group) (value : DescObject) : Group × Nat :=
  ({ group with descRows := group.descRows ++ [value] }, group.descRows.length)

/-- The value of a link column: null for nil, else the row of the object, which
    is added to the Realm first. -/
def linkDesc (group : Group) : Option DescObject → Group × Option Nat
  | none => (group, none)
  | some value => ((group.createDesc value).1, some (group.createDesc value).2)

def setStatsRow (group : Group) (row : Nat) (f : StatsRow → StatsRow) : Group :=
  { group with statsRows := group.statsRows.modify row f }

def setPlayerRow (group : Group) (row : Nat) (f : PlayerRow → PlayerRow) : Group :=
  { group with playerRows := group.playerRows.modify row f }

/-- A `StatsObject` has no primary key: it always gets a new row, and then its
    four link columns are set in declaration order. -/
def createStats (group : Group) (value : StatsObject) : Group × Nat :=
  let row := group.statsRows.length
  let group : Group := { group with statsRows := group.statsRows ++ [⟨none, none, none, none⟩] }
  let (group, link) := group.linkDesc value.vsHuman
  let group := group.setStatsRow row fun r => { r with vsHuman := link }
  let (group, link) := group.linkDesc value.vsElf
  let group := group.setStatsRow row fun r => { r with vsElf := link }
  let (group, link) := group.linkDesc value.vsOrc
  let group := group.setStatsRow row fun r => { r with vsOrc := link }
  let (group, link) := group.linkDesc value.vsUndead
  let group := group.setStatsRow row fun r => { r with vsUndead := link }
  (group, row)

def linkStats (group : Group) : Option StatsObject → Group × Option Nat
  | none => (group, none)
  | some value => ((group.createStats value).1, some (group.createStats value).2)

/-- `Object::create` for a class with a primary key: find the row of the key, or
    append one; an existing row is an error unless updating. -/
def createPlayer (group : Group) (value : PlayerObject) (tryUpdate : Bool) :
    Except NSException Group :=
  let found : Except NSException (Group × Nat) :=
    match KeyedTable.findFirst PlayerRow.name value.name group.playerRows with
    | none =>
        .ok ({ group with playerRows := group.playerRows ++ [⟨value.name, none, ""⟩] },
          group.playerRows.length)
    | some row =>
        if tryUpdate then .ok (group, row)
        else .error (.existingPrimaryKey "PlayerObject" value.name)
  match found with
  | .error e => .error e
  | .ok (group, row) =>
      let (group, link) := group.linkStats value.stats
      let group := group.setPlayerRow row fun r => { r with stats := link }
      .ok (group.setPlayerRow row fun r => { r with race := value.race })

/-! ### What `Object::create` does with a complete object -/

/-- One more `StatsObject`, with its four `DescObject`s. -/
def appendStats (group : Group) (vsHuman vsElf vsOrc vsUndead : DescObject) : Group :=
  let desc := group.descRows.length
  { group with
    statsRows := group.statsRows ++ [⟨some desc, some (desc + 1), some (desc + 2), some (desc + 3)⟩]
    descRows := group.descRows ++ [vsHuman, vsElf, vsOrc, vsUndead] }

theorem setStatsRow_append (players : List PlayerRow) (rows : List StatsRow) (r : StatsRow)
    (descs : List DescObject) (f : StatsRow → StatsRow) :
    (Group.mk players (rows ++ [r]) descs).setStatsRow rows.length f =
      ⟨players, rows ++ [f r], descs⟩ := by
  simp only [setStatsRow, KeyedTable.modify_length_append]

theorem createStats_of_some (group : Group) (vsHuman vsElf vsOrc vsUndead : DescObject) :
    group.createStats ⟨some vsHuman, some vsElf, some vsOrc, some vsUndead⟩ =
      (group.appendStats vsHuman vsElf vsOrc vsUndead, group.statsRows.length) := by
  simp only [createStats, linkDesc, createDesc, setStatsRow_append, appendStats,
    List.append_assoc, List.cons_append, List.nil_append, List.length_append,
    List.length_cons, List.length_nil]

variable {group : Group} {name race : String} {vsHuman vsElf vsOrc vsUndead : DescObject}

/-- A key that is not in the table yet gets a new row. -/
theorem createPlayer_of_none
    (h : KeyedTable.findFirst PlayerRow.name name group.playerRows = none) (tryUpdate : Bool) :
    group.createPlayer
        ⟨name, some ⟨some vsHuman, some vsElf, some vsOrc, some vsUndead⟩, race⟩ tryUpdate =
      .ok { group.appendStats vsHuman vsElf vsOrc vsUndead with
        playerRows := group.playerRows ++ [⟨name, some group.statsRows.length, race⟩] } := by
  simp only [createPlayer, h, linkStats, createStats_of_some, setPlayerRow, appendStats,
    KeyedTable.modify_length_append]

/-- An update overwrites the link and the race of the row of the key. -/
theorem createPlayer_of_some {row : Nat}
    (h : KeyedTable.findFirst PlayerRow.name name group.playerRows = some row) :
    group.createPlayer
        ⟨name, some ⟨some vsHuman, some vsElf, some vsOrc, some vsUndead⟩, race⟩ true =
      .ok { group.appendStats vsHuman vsElf vsOrc vsUndead with
        playerRows := group.playerRows.set row ⟨name, some group.statsRows.length, race⟩ } := by
  obtain ⟨hrow, hname⟩ := KeyedTable.findFirst_eq_some h
  simp only [createPlayer, h, if_true, linkStats, createStats_of_some, setPlayerRow, appendStats,
    List.modify_modify_eq]
  rw [KeyedTable.modify_eq_set hrow, Function.comp_apply, hname]

/-- Without updating, a key that is in the table is an error. -/
theorem createPlayer_existing {row : Nat} {value : PlayerObject}
    (h : KeyedTable.findFirst PlayerRow.name value.name group.playerRows = some row) :
    group.createPlayer value false = .error (.existingPrimaryKey "PlayerObject" value.name) := by
  simp [createPlayer, h]

/-! ### Reading through accessors -/

def readDesc (group : Group) (link : Option Nat) : Option DescObject :=
  link.bind fun row => group.descRows[row]?

def readStats (group : Group) (link : Option Nat) : Option StatsObject :=
  (link.bind fun row => group.statsRows[row]?).map fun r =>
    ⟨group.readDesc r.vsHuman, group.readDesc r.vsElf, group.readDesc r.vsOrc,
      group.readDesc r.vsUndead⟩

def readPlayer (group : Group) (r : PlayerRow) : PlayerObject :=
  ⟨r.name, group.readStats r.stats, r.race⟩

end Group

/-! ### Transactions -/

/-- How a Swift function that `throws` ended. -/
inductive Completion where
  | returned
  | threw
deriving DecidableEq, Repr

/-- What the core did with a commit. -/
inductive CommitOutcome where
  /-- The changes are durable and the transaction is over. -/
  | committed
  /-- It threw, the transaction is over and its changes are gone. -/
  | threwRolledBack
  /-- It threw and left the transaction in its writing stage. -/
  | threwInWrite
deriving DecidableEq, Repr

/-- The shared `Realm`: the tables as they read through it, and while it is in
    its writing stage the tables `cancelWrite` goes back to. -/
structure Realm where
  group : Group
  beforeWrite : Option Group
deriving DecidableEq, Repr

namespace Realm

/-- A Realm file just opened. -/
def opened (group : Group) : Realm := ⟨group, none⟩

def isInWriteTransaction (realm : Realm) : Bool := realm.beforeWrite.isSome

def beginWrite (realm : Realm) : Except Trap Realm :=
  if realm.isInWriteTransaction then .error (.exception .alreadyInWriteTransaction)
  else .ok { realm with beforeWrite := some realm.group }

def cancelWrite (realm : Realm) : Except Trap Realm :=
  match realm.beforeWrite with
  | none => .error (.exception .notInWriteTransaction)
  | some group => .ok ⟨group, none⟩

/-- `commitWrite`: the Objective-C method turns every C++ exception of the commit,
    the one for a transaction that does not exist included, into an error. -/
def commitWrite (commit : CommitOutcome) (realm : Realm) : Realm × Completion :=
  match realm.beforeWrite with
  | none => (realm, .threw)
  | some group =>
      match commit with
      | .committed => (⟨realm.group, none⟩, .returned)
      | .threwRolledBack => (⟨group, none⟩, .threw)
      | .threwInWrite => (realm, .threw)

/-- `Realm.write`: an error of the block cancels the transaction, an error of the
    commit does not. -/
def write (block : Realm → Except Trap (Realm × Completion)) (commit : CommitOutcome)
    (realm : Realm) : Except Trap (Realm × Completion) :=
  match realm.beginWrite with
  | .error x => .error x
  | .ok realm =>
      match block realm with
      | .error x => .error x
      | .ok (realm, .threw) =>
          if realm.isInWriteTransaction then
            match realm.cancelWrite with
            | .error x => .error x
            | .ok realm => .ok (realm, .threw)
          else .ok (realm, .threw)
      | .ok (realm, .returned) =>
          if realm.isInWriteTransaction then .ok (realm.commitWrite commit)
          else .ok (realm, .returned)

/-! ### Operations on players -/

/-- `add(_:update:)` of an unmanaged `PlayerObject`. -/
def add (object : PlayerObject) (update : Bool) (realm : Realm) :
    Except Trap (Realm × Completion) :=
  match realm.group.createPlayer object update with
  | .error e => .error (.exception e)
  | .ok group => .ok ({ realm with group }, .returned)

/-- `delete(_:)` of the `PlayerObject` at a row. -/
def delete (row : Nat) (realm : Realm) : Except Trap (Realm × Completion) :=
  .ok ({ realm with group :=
          { realm.group with
            playerRows := KeyedTable.moveLastOver realm.group.playerRows row } }, .returned)

/-- `object(ofType:forPrimaryKey:)`: the row of the key. -/
def objectForPrimaryKey (name : String) (realm : Realm) : Option Nat :=
  KeyedTable.findFirst PlayerRow.name name realm.group.playerRows

/-- What the accessor of a row reads. -/
def accessor (realm : Realm) (row : Nat) : Option PlayerObject :=
  realm.group.playerRows[row]?.map realm.group.readPlayer

/-- `objects(PlayerObject.self)`, in table order. -/
def objects (realm : Realm) : List PlayerObject :=
  realm.group.playerRows.map realm.group.readPlayer

/-- Outside a transaction, `write` of a block that returns commits what the block
    did to the tables. -/
theorem write_of_returned {realm : Realm} {block : Realm → Except Trap (Realm × Completion)}
    {group : Group} (hidle : realm.beforeWrite = none)
    (hblock : block ⟨realm.group, some realm.group⟩ =
      .ok (⟨group, some realm.group⟩, .returned)) (commit : CommitOutcome) :
    realm.write block commit = .ok (commitWrite commit ⟨group, some realm.group⟩) := by
  have hbegin : realm.beginWrite = .ok ⟨realm.group, some realm.group⟩ := by
    simp [beginWrite, isInWriteTransaction, hidle]
  simp [write, hbegin, hblock, isInWriteTransaction]

theorem write_of_error {realm : Realm} {block : Realm → Except Trap (Realm × Completion)}
    {x : Trap} (hidle : realm.beforeWrite = none)
    (hblock : block ⟨realm.group, some realm.group⟩ = .error x) (commit : CommitOutcome) :
    realm.write block commit = .error x := by
  have hbegin : realm.beginWrite = .ok ⟨realm.group, some realm.group⟩ := by
    simp [beginWrite, isInWriteTransaction, hidle]
  simp [write, hbegin, hblock]

end Realm

end W3Stats

import W3Stats.Realm
import W3Stats.StepMachine

/-!
# RealmDataParser and RealmDataProvider

The mapping between business objects and data model objects, in both
directions, and the five operations of the provider.  A provider call that
writes reports through `onFailed`, which is its `Reply` here.
-/

namespace W3Stats

/-! ### RealmDataParser: business objects from data model objects -/

namespace RealmDataParser

def descFromDescObject : Option DescObject → Option Desc
  | none => none
  | some obj => some ⟨obj.wins, obj.losses⟩

/-- `Stats.init?` fails when one of the four is nil. -/
def statsInit : Option Desc → Option Desc → Option Desc → Option Desc → Option Stats
  | some vsHuman, some vsElf, some vsOrc, some vsUndead => some ⟨vsHuman, vsElf, vsOrc, vsUndead⟩
  | _, _, _, _ => none

def statsFromStatsObject (statsObject : Option StatsObject) : Option Stats :=
  statsInit (descFromDescObject (statsObject.bind (·.vsHuman)))
    (descFromDescObject (statsObject.bind (·.vsElf)))
    (descFromDescObject (statsObject.bind (·.vsOrc)))
    (descFromDescObject (statsObject.bind (·.vsUndead)))

def playerFromPlayerObject : Option PlayerObject → Option Player
  | none => none
  | some obj =>
      match statsFromStatsObject obj.stats with
      | none => none
      | some stats => some ⟨obj.name, Race.ofRawValue obj.race, stats⟩

/-! ### RealmDataParser: data model objects from business objects -/

def descObjectFromDesc (desc : Desc) : DescObject := ⟨desc.wins, desc.losses⟩

def statsObjectFromStats (stats : Stats) : StatsObject :=
  ⟨some (descObjectFromDesc stats.vsHuman), some (descObjectFromDesc stats.vsElf),
    some (descObjectFromDesc stats.vsOrc), some (descObjectFromDesc stats.vsUndead)⟩

def playerObjectFromPlayer (player : Player) : PlayerObject :=
  ⟨player.name, some (statsObjectFromStats player.stats), player.race.rawValue⟩

/-- Reading back what was written gives the player written. -/
@[simp] theorem playerFromPlayerObject_playerObjectFromPlayer (player : Player) :
    playerFromPlayerObject (some (playerObjectFromPlayer player)) = some player := by
  simp [playerFromPlayerObject, playerObjectFromPlayer, statsFromStatsObject,
    statsObjectFromStats, statsInit, descFromDescObject, descObjectFromDesc]

end RealmDataParser

/-! ### RealmDataProvider -/

/-- How a provider call that writes ended: silently, or through `onFailed`. -/
inductive Reply where
  | done
  | onFailed
deriving DecidableEq, Repr

/-- The `do`/`catch` around each write. -/
def Completion.reply : Completion → Reply
  | .returned => .done
  | .threw => .onFailed

namespace RealmDataProvider

open RealmDataParser

/-- `do { try realm.write … } catch { onFailed() }`. -/
def writeOrFail (block : Realm → Except Trap (Realm × Completion)) (commit : CommitOutcome)
    (realm : Realm) : Except Trap (Realm × Reply) :=
  match realm.write block commit with
  | .error x => .error x
  | .ok (realm, completion) => .ok (realm, completion.reply)

def savePlayer (player : Player) (commit : CommitOutcome) (realm : Realm) :
    Except Trap (Realm × Reply) :=
  writeOrFail (Realm.add (playerObjectFromPlayer player) false) commit realm

def updatePlayer (player : Player) (commit : CommitOutcome) (realm : Realm) :
    Except Trap (Realm × Reply) :=
  writeOrFail (Realm.add (playerObjectFromPlayer player) true) commit realm

def loadPlayers (realm : Realm) : List Player :=
  realm.objects.filterMap fun object => playerFromPlayerObject (some object)

def loadPlayer (name : String) (realm : Realm) : Option Player :=
  playerFromPlayerObject ((realm.objectForPrimaryKey name).bind realm.accessor)

def deletePlayer (name : String) (commit : CommitOutcome) (realm : Realm) :
    Except Trap (Realm × Reply) :=
  match realm.objectForPrimaryKey name with
  | none => .ok (realm, .onFailed)
  | some row => writeOrFail (Realm.delete row) commit realm

/-! ### How a write settles -/

/-- The Realm and the reply after a write that turned the tables `before` into
    `after`. -/
def settle (before after : Group) : CommitOutcome → Realm × Reply
  | .committed => (⟨after, none⟩, .done)
  | .threwRolledBack => (⟨before, none⟩, .onFailed)
  | .threwInWrite => (⟨after, some before⟩, .onFailed)

variable {realm : Realm} {block : Realm → Except Trap (Realm × Completion)}

theorem writeOrFail_of_returned {group : Group} (hidle : realm.beforeWrite = none)
    (hblock : block ⟨realm.group, some realm.group⟩ =
      .ok (⟨group, some realm.group⟩, .returned)) (commit : CommitOutcome) :
    writeOrFail block commit realm = .ok (settle realm.group group commit) := by
  rw [writeOrFail, Realm.write_of_returned hidle hblock]
  cases commit <;> rfl

theorem writeOrFail_of_error {x : Trap} (hidle : realm.beforeWrite = none)
    (hblock : block ⟨realm.group, some realm.group⟩ = .error x) (commit : CommitOutcome) :
    writeOrFail block commit realm = .error x := by
  rw [writeOrFail, Realm.write_of_error hidle hblock]

end RealmDataProvider

end W3Stats

import W3Stats.SharedRuns

/-!
# The parser creates the players it returns

`RealmDataParser` and the loading operations of `RealmDataProvider`, with the
objects they create.  Nothing keeps an object that was returned before, so the
app over the Realm shares no player.
-/

namespace W3Stats

open StepMachine ObjectHeap

namespace SharedParser

/-- `Desc.init(wins:losses:)` is the one place where a `Desc` is created. -/
def descFromDescObject : Option DescObject → List Desc → List Desc × Option Ref
  | none, heap => (heap, none)
  | some obj, heap =>
      let (heap, desc) := ObjectHeap.new ⟨obj.wins, obj.losses⟩ heap
      (heap, some desc)

def statsInit : Option Ref → Option Ref → Option Ref → Option Ref → Option SharedStats
  | some vsHuman, some vsElf, some vsOrc, some vsUndead => some ⟨vsHuman, vsElf, vsOrc, vsUndead⟩
  | _, _, _, _ => none

def statsFromStatsObject (statsObject : Option StatsObject) (heap : List Desc) :
    List Desc × Option SharedStats :=
  let (heap, vsHuman) := descFromDescObject (statsObject.bind (·.vsHuman)) heap
  let (heap, vsElf) := descFromDescObject (statsObject.bind (·.vsElf)) heap
  let (heap, vsOrc) := descFromDescObject (statsObject.bind (·.vsOrc)) heap
  let (heap, vsUndead) := descFromDescObject (statsObject.bind (·.vsUndead)) heap
  (heap, statsInit vsHuman vsElf vsOrc vsUndead)

def playerFromPlayerObject : Option PlayerObject → List Desc → List Desc × Option SharedPlayer
  | none, heap => (heap, none)
  | some obj, heap =>
      let (heap, stats) := statsFromStatsObject obj.stats heap
      (heap, stats.map fun stats => ⟨obj.name, Race.ofRawValue obj.race, stats⟩)

/-- The `compactMap` of `loadPlayers`. -/
def playersFromPlayerObjects : List PlayerObject → List Desc → List Desc × List SharedPlayer
  | [], heap => (heap, [])
  | obj :: objs, heap =>
      let (heap, player) := playerFromPlayerObject (some obj) heap
      let (heap, players) := playersFromPlayerObjects objs heap
      (heap, player.toList ++ players)

/-! ### What they create -/

theorem descFromDescObject_extends (obj : Option DescObject) (heap : List Desc) :
    heap <+: (descFromDescObject obj heap).1 := by
  cases obj with
  | none => exact List.prefix_refl heap
  | some obj => exact List.prefix_append heap _

theorem statsFromStatsObject_extends (obj : Option StatsObject) (heap : List Desc) :
    heap <+: (statsFromStatsObject obj heap).1 := by
  unfold statsFromStatsObject
  apply (descFromDescObject_extends _ _).trans
  apply (descFromDescObject_extends _ _).trans
  apply (descFromDescObject_extends _ _).trans
  exact descFromDescObject_extends _ _

theorem playerFromPlayerObject_extends (obj : Option PlayerObject) (heap : List Desc) :
    heap <+: (playerFromPlayerObject obj heap).1 := by
  cases obj with
  | none => exact List.prefix_refl heap
  | some obj => exact statsFromStatsObject_extends obj.stats heap

/-- A record that is not complete gives no player; a complete one gives a new player
    with its counters. -/
theorem playerFromPlayerObject_spec (obj : Option PlayerObject) (heap : List Desc) :
    (playerFromPlayerObject obj heap).2.map
        (SharedPlayer.value (playerFromPlayerObject obj heap).1) =
      RealmDataParser.playerFromPlayerObject obj ∧
    ∀ player ∈ (playerFromPlayerObject obj heap).2,
      Created heap (playerFromPlayerObject obj heap).1 player := by
  rcases obj with _ | ⟨name, stats, race⟩
  · simp [playerFromPlayerObject, RealmDataParser.playerFromPlayerObject]
  · simp only [playerFromPlayerObject, RealmDataParser.playerFromPlayerObject,
      statsFromStatsObject, RealmDataParser.statsFromStatsObject]
    rcases stats.bind (·.vsHuman) with _ | vsHuman
    · simp [descFromDescObject, RealmDataParser.descFromDescObject, statsInit,
        RealmDataParser.statsInit]
    rcases stats.bind (·.vsElf) with _ | vsElf
    · simp [descFromDescObject, RealmDataParser.descFromDescObject, statsInit,
        RealmDataParser.statsInit]
    rcases stats.bind (·.vsOrc) with _ | vsOrc
    · simp [descFromDescObject, RealmDataParser.descFromDescObject, statsInit,
        RealmDataParser.statsInit]
    rcases stats.bind (·.vsUndead) with _ | vsUndead
    · simp [descFromDescObject, RealmDataParser.descFromDescObject, statsInit,
        RealmDataParser.statsInit]
    obtain ⟨hcreated, hvalue⟩ := created_append heap name (Race.ofRawValue race)
      ⟨⟨vsHuman.wins, vsHuman.losses⟩, ⟨vsElf.wins, vsElf.losses⟩, ⟨vsOrc.wins, vsOrc.losses⟩,
        ⟨vsUndead.wins, vsUndead.losses⟩⟩
    simp only [descFromDescObject, RealmDataParser.descFromDescObject, statsInit,
      RealmDataParser.statsInit, ObjectHeap.new, List.append_assoc, List.cons_append,
      List.nil_append, List.length_append, List.length_cons, List.length_nil, Option.map_some]
    refine ⟨congrArg some hvalue, ?_⟩
    rintro _ ⟨⟩
    exact hcreated

theorem playersFromPlayerObjects_extends (objs : List PlayerObject) (heap : List Desc) :
    heap <+: (playersFromPlayerObjects objs heap).1 := by
  induction objs generalizing heap with
  | nil => exact List.prefix_refl heap
  | cons obj objs ih => exact (playerFromPlayerObject_extends (some obj) heap).trans (ih _)

/-- Each record read later leaves the players read before as they are. -/
theorem playersFromPlayerObjects_spec (objs : List PlayerObject) (heap : List Desc) :
    (playersFromPlayerObjects objs heap).2.map
        (SharedPlayer.value (playersFromPlayerObjects objs heap).1) =
      objs.filterMap (fun obj => RealmDataParser.playerFromPlayerObject (some obj)) ∧
    ∀ player ∈ (playersFromPlayerObjects objs heap).2,
      Created heap (playersFromPlayerObjects objs heap).1 player := by
  induction objs generalizing heap with
  | nil => simp [playersFromPlayerObjects]
  | cons obj objs ih =>
    obtain ⟨hvalue, hcreated⟩ := playerFromPlayerObject_spec (some obj) heap
    have hgrown := playerFromPlayerObject_extends (some obj) heap
    simp only [playersFromPlayerObjects]
    generalize playerFromPlayerObject (some obj) heap = first at hvalue hcreated hgrown ⊢
    obtain ⟨heap', player⟩ := first
    obtain ⟨hvalues, hcreateds⟩ := ih heap'
    have hgrown' := playersFromPlayerObjects_extends objs heap'
    simp only at hvalue hcreated hgrown hvalues hcreateds hgrown' ⊢
    constructor
    · rw [List.map_append, hvalues, List.filterMap_cons, ← hvalue]
      rcases player with _ | player
      · rfl
      · have hkept := SharedPlayer.value_of_extends (hcreated player rfl).live hgrown'
        simp [hkept]
    · intro player' hplayer'
      rcases List.mem_append.mp hplayer' with hfirst | hrest
      · exact (hcreated player' (Option.mem_toList.mp hfirst)).mono hgrown'.length_le
      · have hnew := hcreateds player' hrest
        exact ⟨hnew.live, fun race => hgrown.length_le.trans (hnew.fresh race), hnew.distinct⟩

end SharedParser

instance : SharedProviding Realm where
  loadPlayers realm heap := SharedParser.playersFromPlayerObjects realm.objects heap
  loadPlayer name realm heap :=
    SharedParser.playerFromPlayerObject ((realm.objectForPrimaryKey name).bind realm.accessor) heap
  loadPlayers_extends realm heap := SharedParser.playersFromPlayerObjects_extends realm.objects heap
  loadPlayers_value realm heap :=
    (SharedParser.playersFromPlayerObjects_spec realm.objects heap).1
  loadPlayers_created realm heap :=
    (SharedParser.playersFromPlayerObjects_spec realm.objects heap).2
  loadPlayer_extends _ _ heap := SharedParser.playerFromPlayerObject_extends _ heap
  loadPlayer_value _ _ heap := (SharedParser.playerFromPlayerObject_spec _ heap).1
  loadPlayer_created _ _ heap := (SharedParser.playerFromPlayerObject_spec _ heap).2

/-- **Sharing is never observed.**  From any Realm, a run of the app in which the
    players are references ends as the run in which they are values ends: with the
    same traps, the same store and the same screens, and with no reference to a
    counter that a handler writes to in any list. -/
theorem SharedApp.run_standsFor (count : String → Nat) (realm : Realm) (events : List AppEvent) :
    Agree SharedApp.StandsFor (run (SharedApp.step count) (SharedApp.launch realm) events)
      (run (App.step count) (App.launch realm) events) :=
  SharedApp.run_agree_values count realm events

end W3Stats

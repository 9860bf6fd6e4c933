import W3Stats.App
import W3Stats.ObjectHeap

/-!
# Players as objects that handlers share

In the source `Player`, `Stats` and `Desc` are classes.  The two handlers that
change a counter write to a `Desc` object through the reference that `self.player`
leads to, and the `players` array of a players screen keeps references as well.
Here the app runs over a heap of `Desc` objects with these references in place of
players.  `Player` and `Stats` have `let` properties only, so a reference to one
is as good as its fields.

The players of the rest of the development are values.  That is right because no
counter that a handler writes to is reached through any other reference, in any
state a run leads to.
-/

namespace W3Stats

open StepMachine ObjectHeap

/-! ### References -/

instance : Inhabited Desc := ⟨.empty⟩

structure SharedStats where
  vsHuman : Ref
  vsElf : Ref
  vsOrc : Ref
  vsUndead : Ref
deriving DecidableEq, Repr

structure SharedPlayer where
  name : String
  race : Race
  stats : SharedStats
deriving DecidableEq, Repr

/-- The property a `switch` over the race selects. -/
def SharedStats.desc (stats : SharedStats) : Race → Ref
  | .human => stats.vsHuman
  | .elf => stats.vsElf
  | .orc => stats.vsOrc
  | .undead => stats.vsUndead

def Stats.desc (stats : Stats) : Race → Desc
  | .human => stats.vsHuman
  | .elf => stats.vsElf
  | .orc => stats.vsOrc
  | .undead => stats.vsUndead

def Desc.counter (desc : Desc) : ResultType → SwiftInt
  | .win => desc.wins
  | .lose => desc.losses

def Desc.setCounter (desc : Desc) (newValue : SwiftInt) : ResultType → Desc
  | .win => { desc with wins := newValue }
  | .lose => { desc with losses := newValue }

/-- The player that a reference leads to. -/
def SharedPlayer.value (heap : List Desc) (player : SharedPlayer) : Player :=
  ⟨player.name, player.race, ⟨read heap player.stats.vsHuman, read heap player.stats.vsElf,
    read heap player.stats.vsOrc, read heap player.stats.vsUndead⟩⟩

/-! ### What loading creates -/

/-- A new player, its four `Desc` objects included. -/
structure Created (heap heap' : List Desc) (player : SharedPlayer) : Prop where
  live : Live heap' player.stats.desc
  fresh : ∀ race, heap.length ≤ player.stats.desc race
  distinct : Function.Injective player.stats.desc

/-- A provider whose loading operations create the objects they return. -/
class SharedProviding (π : Type) [DataProviding π] where
  loadPlayers : π → List Desc → List Desc × List SharedPlayer
  loadPlayer : String → π → List Desc → List Desc × Option SharedPlayer
  loadPlayers_extends : ∀ provider heap, heap <+: (loadPlayers provider heap).1
  loadPlayers_value : ∀ provider heap,
    (loadPlayers provider heap).2.map (SharedPlayer.value (loadPlayers provider heap).1) =
      DataProviding.loadPlayers provider
  loadPlayers_created : ∀ provider heap, ∀ player ∈ (loadPlayers provider heap).2,
    Created heap (loadPlayers provider heap).1 player
  loadPlayer_extends : ∀ name provider heap, heap <+: (loadPlayer name provider heap).1
  loadPlayer_value : ∀ name provider heap,
    (loadPlayer name provider heap).2.map (SharedPlayer.value (loadPlayer name provider heap).1) =
      DataProviding.loadPlayer name provider
  loadPlayer_created : ∀ name provider heap, ∀ player ∈ (loadPlayer name provider heap).2,
    Created heap (loadPlayer name provider heap).1 player

/-! ### StatsViewController -/

structure SharedStatsViewController where
  player : Option SharedPlayer
  display : Option Display
  form : SlideUpForm
  checkmarkIsHidden : Bool
  pendingCheckmarks : Nat
  alerts : List String
deriving DecidableEq, Repr

namespace SharedStatsViewController

def initial : SharedStatsViewController := ⟨none, none, .initial, true, 0, []⟩

def showStats (vc : SharedStatsViewController) (heap : List Desc) :
    Except Trap SharedStatsViewController :=
  match vc.player with
  | none => .ok vc
  | some player => do
      let display ← (player.value heap).display
      return { vc with display := some display }

def showAddMatchResultView (vc : SharedStatsViewController) : SharedStatsViewController :=
  { vc with form := vc.form.slideUp 500 }

def hideAddMatchResultView (vc : SharedStatsViewController) : SharedStatsViewController :=
  { vc with form := vc.form.slideDown }

def showCheckmark (vc : SharedStatsViewController) : SharedStatsViewController :=
  { vc with checkmarkIsHidden := false, pendingCheckmarks := vc.pendingCheckmarks + 1 }

def checkmarkCompleted (vc : SharedStatsViewController) : SharedStatsViewController :=
  if vc.pendingCheckmarks = 0 then vc
  else { vc with checkmarkIsHidden := true, pendingCheckmarks := vc.pendingCheckmarks - 1 }

def onUpdated (reply : Reply) (vc : SharedStatsViewController) : SharedStatsViewController :=
  match reply with
  | .done => vc
  | .onFailed => { vc with alerts := vc.alerts ++ ["Could not save new match result."] }

variable {π : Type} [DataProviding π]

/-- The provider reads the player through its reference. -/
def updateAndShow (player : SharedPlayer) (write : Write) (vc : SharedStatsViewController)
    (provider : π) (heap : List Desc) : Except Trap (SharedStatsViewController × π) := do
  let (provider, reply) ← DataProviding.updatePlayer (player.value heap) write provider
  let vc ← showStats (onUpdated reply vc) heap
  return (vc, provider)

/-- One assignment, to the counter of the `Desc` object that the `switch` selects. -/
def saveNewValue (newValue : SwiftInt) (race : Race) (matchResult : ResultType) (write : Write)
    (vc : SharedStatsViewController) (provider : π) (heap : List Desc) :
    Except Trap (SharedStatsViewController × π × List Desc) :=
  match vc.player with
  | none => .ok (vc, provider, heap)
  | some player => do
      let desc := player.stats.desc race
      let heap := ObjectHeap.write heap desc ((read heap desc).setCounter newValue matchResult)
      let (vc, provider) ← updateAndShow player write vc provider heap
      return (vc, provider, heap)

def addNewMatchResult (matchResult : MatchResult) (write : Write)
    (vc : SharedStatsViewController) (provider : π) (heap : List Desc) :
    Except Trap (SharedStatsViewController × π × List Desc) :=
  match vc.player with
  | none => .ok (vc, provider, heap)
  | some player => do
      let desc := player.stats.desc matchResult.vsRace
      let value ← ((read heap desc).counter matchResult.resultType).add 1
      let heap :=
        ObjectHeap.write heap desc ((read heap desc).setCounter value matchResult.resultType)
      let (vc, provider) ← updateAndShow player write vc provider heap
      return (vc.hideAddMatchResultView.showCheckmark, provider, heap)

def updateStatsForPlayer [SharedProviding π] (playerName : String)
    (vc : SharedStatsViewController) (provider : π) (heap : List Desc) :
    Except Trap (SharedStatsViewController × List Desc) := do
  let (heap, player) := SharedProviding.loadPlayer playerName provider heap
  let vc ← showStats { vc with player } heap
  return (vc, heap)

def handle (vc : SharedStatsViewController) (provider : π) (heap : List Desc) :
    StatsEvent → Except Trap (SharedStatsViewController × π × List Desc)
  | .addNewMatchResult matchResult write => vc.addNewMatchResult matchResult write provider heap
  | .saveNewValue newValue race matchResult write =>
      vc.saveNewValue newValue.value race matchResult write provider heap
  | .addMatchButtonTapped => .ok (vc.showAddMatchResultView, provider, heap)
  | .tappedOnBackground => .ok (vc.hideAddMatchResultView, provider, heap)
  | .unblurCompleted => .ok ({ vc with form := vc.form.unblurCompleted }, provider, heap)
  | .checkmarkCompleted => .ok (vc.checkmarkCompleted, provider, heap)

end SharedStatsViewController

/-! ### PlayersViewController -/

structure SharedPlayersViewController where
  players : List SharedPlayer
  form : SlideUpForm
  addPlayerView : AddPlayerView
  alerts : List String
deriving DecidableEq, Repr

namespace SharedPlayersViewController

def showAddPlayerView (vc : SharedPlayersViewController) : SharedPlayersViewController :=
  { vc with form := vc.form.slideUp 436 }

def hideAddPlayerView (vc : SharedPlayersViewController) : SharedPlayersViewController :=
  { vc with form := vc.form.slideDown }

def onReply (message : String) (reply : Reply) (vc : SharedPlayersViewController) :
    SharedPlayersViewController :=
  match reply with
  | .done => vc
  | .onFailed => { vc with alerts := vc.alerts ++ [message] }

variable {π : Type} [DataProviding π]

def viewDidLoad [SharedProviding π] (provider : π) (heap : List Desc) :
    SharedPlayersViewController × List Desc :=
  let (heap, players) := SharedProviding.loadPlayers provider heap
  let vc : SharedPlayersViewController := ⟨players, .initial, .initial, []⟩
  (if vc.players.isEmpty then vc.showAddPlayerView else vc, heap)

def tappedOnBackground (vc : SharedPlayersViewController) : SharedPlayersViewController :=
  if !vc.players.isEmpty then vc.hideAddPlayerView else vc

/-- `Stats(vsHuman: Desc(), vsElf: Desc(), vsOrc: Desc(), vsUndead: Desc())`. -/
def newStats (heap : List Desc) : List Desc × SharedStats :=
  let (heap, vsHuman) := ObjectHeap.new .empty heap
  let (heap, vsElf) := ObjectHeap.new .empty heap
  let (heap, vsOrc) := ObjectHeap.new .empty heap
  let (heap, vsUndead) := ObjectHeap.new .empty heap
  (heap, ⟨vsHuman, vsElf, vsOrc, vsUndead⟩)

def listNewPlayer (player : SharedPlayer) (reply : Reply) (vc : SharedPlayersViewController) :
    SharedPlayersViewController :=
  let vc := vc.onReply "Failed to save player." reply
  let vc := { vc with players := vc.players ++ [player] }
  vc.hideAddPlayerView

def addNewPlayer (playerResult : NewPlayer) (write : Write) (vc : SharedPlayersViewController)
    (provider : π) (heap : List Desc) :
    Except Trap (SharedPlayersViewController × π × List Desc) := do
  let (heap, stats) := newStats heap
  let player : SharedPlayer := ⟨playerResult.name, playerResult.race, stats⟩
  let (provider, reply) ← DataProviding.savePlayer (player.value heap) write provider
  return (vc.listNewPlayer player reply, provider, heap)

def removeRow (row : Nat) (reply : Reply) (vc : SharedPlayersViewController) :
    SharedPlayersViewController :=
  let vc := vc.onReply "Failed to delete player." reply
  { vc with players := vc.players.eraseIdx row }

def commitDelete (row : Nat) (write : Write) (vc : SharedPlayersViewController) (provider : π) :
    Except Trap (SharedPlayersViewController × π) :=
  match vc.players[row]? with
  | none => .error .indexOutOfRange
  | some player => do
      let (provider, reply) ← DataProviding.deletePlayer player.name write provider
      return (vc.removeRow row reply, provider)

def tapOnSave (write : Write) (vc : SharedPlayersViewController) (provider : π)
    (heap : List Desc) : Except Trap (SharedPlayersViewController × π × List Desc) := do
  let (vc, provider, heap) ← vc.addNewPlayer vc.addPlayerView.playerResult write provider heap
  return ({ vc with addPlayerView := { vc.addPlayerView with nameText := none } }, provider, heap)

def handle (count : String → Nat) (vc : SharedPlayersViewController) (provider : π)
    (heap : List Desc) : PlayersEvent → Except Trap (SharedPlayersViewController × π × List Desc)
  | .type text =>
      if vc.form.IsOpen then
        .ok ({ vc with addPlayerView := vc.addPlayerView.type count text }, provider, heap)
      else .ok (vc, provider, heap)
  | .didSelectRace row =>
      if vc.form.IsOpen then
        .ok ({ vc with addPlayerView := vc.addPlayerView.didSelectRow row }, provider, heap)
      else .ok (vc, provider, heap)
  | .tapOnSave write =>
      if vc.form.IsOpen ∧ vc.addPlayerView.saveButtonIsEnabled then
        vc.tapOnSave write provider heap
      else .ok (vc, provider, heap)
  | .addPlayerButtonTapped => .ok (vc.showAddPlayerView, provider, heap)
  | .tappedOnBackground => .ok (vc.tappedOnBackground, provider, heap)
  | .commitDelete row write =>
      if row < vc.players.length then do
        let (vc, provider) ← vc.commitDelete row write provider
        return (vc, provider, heap)
      else .ok (vc, provider, heap)
  | .unblurCompleted => .ok ({ vc with form := vc.form.unblurCompleted }, provider, heap)

end SharedPlayersViewController

/-! ### The app -/

structure SharedApp (π : Type) where
  heap : List Desc
  provider : π
  stats : SharedStatsViewController
  screens : List SharedPlayersViewController
  presented : Option Nat
  queue : List Block
deriving DecidableEq

namespace SharedApp

variable {π : Type}

def launch (provider : π) : SharedApp π :=
  ⟨[], provider, .initial, [], none, [.presentPlayersViewController]⟩

def top (app : SharedApp π) : Option (Nat × SharedPlayersViewController) :=
  app.presented.bind fun i => (app.screens[i]?).map fun vc => (i, vc)

def enqueue (block : Block) (app : SharedApp π) : SharedApp π :=
  { app with queue := app.queue ++ [block] }

variable [DataProviding π] [SharedProviding π]

def runBlock (obeyed : Bool) (app : SharedApp π) : Block → Except Trap (SharedApp π)
  | .presentPlayersViewController =>
      if app.presented = none ∧ obeyed then
        let (vc, heap) := SharedPlayersViewController.viewDidLoad app.provider app.heap
        .ok { app with heap, screens := app.screens ++ [vc], presented := some app.screens.length }
      else .ok app
  | .selectRow screen row =>
      match app.screens[screen]? with
      | none => .ok app
      | some vc =>
          match vc.players[row]? with
          | none => .error .indexOutOfRange
          | some player => do
              let (stats, heap) ← app.stats.updateStatsForPlayer player.name app.provider app.heap
              return { app with
                heap
                stats
                presented := if app.presented = some screen ∧ obeyed then none else app.presented }

def step (count : String → Nat) (app : SharedApp π) : AppEvent → Except Trap (SharedApp π)
  | .stats event =>
      if app.presented = none ∨ event.isCompletion = true then do
        let (stats, provider, heap) ← app.stats.handle app.provider app.heap event
        return { app with stats, provider, heap }
      else .ok app
  | .changePlayerTapped =>
      if app.presented = none then .ok (app.enqueue .presentPlayersViewController) else .ok app
  | .players event =>
      match app.top with
      | none => .ok app
      | some (screen, vc) => do
          let (vc, provider, heap) ← vc.handle count app.provider app.heap event
          return { app with screens := app.screens.set screen vc, provider, heap }
  | .didSelectRow row =>
      match app.top with
      | none => .ok app
      | some (screen, vc) =>
          if row < vc.players.length then .ok (app.enqueue (.selectRow screen row)) else .ok app
  | .runBlock position obeyed =>
      match app.queue[position]? with
      | none => .ok app
      | some block =>
          ({ app with queue := app.queue.eraseIdx position } : SharedApp π).runBlock obeyed block

end SharedApp

/-! ### What the references stand for -/

namespace SharedPlayer

variable {heap heap' : List Desc} {player : SharedPlayer}

/-- Only the four objects of a player make its value. -/
theorem value_congr (h : contents heap' player.stats.desc = contents heap player.stats.desc) :
    player.value heap' = player.value heap := by
  have hread : ∀ race, read heap' (player.stats.desc race) = read heap (player.stats.desc race) :=
    fun race => congrFun h race
  have hhuman := hread .human
  have helf := hread .elf
  have horc := hread .orc
  have hundead := hread .undead
  simp only [SharedStats.desc] at hhuman helf horc hundead
  simp only [value, hhuman, helf, horc, hundead]

theorem value_of_extends (hlive : Live heap player.stats.desc) (h : heap <+: heap') :
    player.value heap' = player.value heap :=
  value_congr (contents_of_extends hlive h)

theorem counter_value (heap : List Desc) (player : SharedPlayer) (result : ResultType)
    (race : Race) : (player.value heap).stats.counter result race =
      (read heap (player.stats.desc race)).counter result := by
  cases result <;> cases race <;> rfl

/-- Writing one counter through the reference sets that counter of the value. -/
theorem value_write (hdistinct : Function.Injective player.stats.desc)
    (hlive : Live heap player.stats.desc) (value : SwiftInt) (result : ResultType) (race : Race) :
    player.value (ObjectHeap.write heap (player.stats.desc race)
      ((read heap (player.stats.desc race)).setCounter value result)) =
      (player.value heap).setCounter value result race := by
  have hcontents := contents_write_self hdistinct hlive race
    ((read heap (player.stats.desc race)).setCounter value result)
  have hread : ∀ race', read (ObjectHeap.write heap (player.stats.desc race)
        ((read heap (player.stats.desc race)).setCounter value result)) (player.stats.desc race') =
      if race' = race then (read heap (player.stats.desc race)).setCounter value result
      else read heap (player.stats.desc race') := by
    intro race'
    have hrace := congrFun hcontents race'
    rw [Function.update_apply] at hrace
    exact hrace
  have hhuman := hread .human
  have helf := hread .elf
  have horc := hread .orc
  have hundead := hread .undead
  cases result <;> cases race <;>
    simp only [SharedStats.desc, reduceCtorEq, if_true, if_false] at hhuman helf horc hundead <;>
    simp only [SharedPlayer.value, SharedStats.desc, hhuman, helf, horc, hundead] <;> rfl

end SharedPlayer

/-- Four objects at the end of the heap make a new player. -/
theorem created_append (heap : List Desc) (name : String) (race : Race) (stats : Stats) :
    Created heap (heap ++ [stats.vsHuman, stats.vsElf, stats.vsOrc, stats.vsUndead])
        ⟨name, race, ⟨heap.length, heap.length + 1, heap.length + 2, heap.length + 3⟩⟩ ∧
      SharedPlayer.value (heap ++ [stats.vsHuman, stats.vsElf, stats.vsOrc, stats.vsUndead])
        ⟨name, race, ⟨heap.length, heap.length + 1, heap.length + 2, heap.length + 3⟩⟩ =
          ⟨name, race, stats⟩ := by
  refine ⟨⟨?_, ?_, ?_⟩, ?_⟩
  · intro race'
    cases race' <;> simp [SharedStats.desc]
  · intro race'
    cases race' <;> simp [SharedStats.desc]
  · intro race₁ race₂ heq
    cases race₁ <;> cases race₂ <;> simp [SharedStats.desc] at heq ⊢
  · simp [SharedPlayer.value, ObjectHeap.read]

end W3Stats

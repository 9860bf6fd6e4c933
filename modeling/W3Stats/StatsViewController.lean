import W3Stats.PlayerMap
import W3Stats.SlideUpForm
import W3Stats.StatsUtil

/-!
# StatsViewController

The stats screen: the player it holds, what its five views display, and the
handlers that change a counter, store the player and show it again.  A handler
takes and returns the provider; the write of an update takes the environment's
choice.  The views, the form and the checkmark are kept as far as a handler sets
them.
-/

namespace W3Stats

/-! ### What the views display -/

structure VersusHeaderViewContent where
  raceImageName : String
  percentage : String
deriving DecidableEq, Repr

structure VersusViewContent where
  versusHeaderViewContent : VersusHeaderViewContent
  total : String
  wins : String
  losses : String
deriving DecidableEq, Repr

structure PlayerViewContent where
  playerImageName : String
  name : String
  percentage : String
  total : String
  wins : String
  losses : String
deriving DecidableEq, Repr

/-- The contents of the four `VersusView`s and of the `PlayerView`. -/
structure Display where
  vsHumanView : VersusViewContent
  vsElfView : VersusViewContent
  vsOrcView : VersusViewContent
  vsUndeadView : VersusViewContent
  playerView : PlayerViewContent
deriving DecidableEq, Repr

def Display.versusView (display : Display) : Race → VersusViewContent
  | .human => display.vsHumanView
  | .elf => display.vsElfView
  | .orc => display.vsOrcView
  | .undead => display.vsUndeadView

/-- `"\(percentage)%"`. -/
def Stat.percentageText (stat : Stat) : String := stat.percentage.description ++ "%"

def getVersusViewContent (stat : Stat) (race : Race) : VersusViewContent :=
  ⟨⟨race.rawValue, stat.percentageText⟩, stat.total.description, stat.wins.description,
    stat.losses.description⟩

/-- The contents `showStats` computes, sum by sum. -/
def Player.display (player : Player) : Except Trap Display := do
  let vsHumanStat ← calculateStat player.stats.vsHuman.wins player.stats.vsHuman.losses
  let vsElfStat ← calculateStat player.stats.vsElf.wins player.stats.vsElf.losses
  let vsOrcStat ← calculateStat player.stats.vsOrc.wins player.stats.vsOrc.losses
  let vsUndeadStat ← calculateStat player.stats.vsUndead.wins player.stats.vsUndead.losses
  let wins ← vsHumanStat.wins.add vsElfStat.wins
  let wins ← wins.add vsOrcStat.wins
  let wins ← wins.add vsUndeadStat.wins
  let losses ← vsHumanStat.losses.add vsElfStat.losses
  let losses ← losses.add vsOrcStat.losses
  let losses ← losses.add vsUndeadStat.losses
  let playerStat ← calculateStat wins losses
  return {
    vsHumanView := getVersusViewContent vsHumanStat .human
    vsElfView := getVersusViewContent vsElfStat .elf
    vsOrcView := getVersusViewContent vsOrcStat .orc
    vsUndeadView := getVersusViewContent vsUndeadStat .undead
    playerView := ⟨player.race.rawValue, player.name, playerStat.percentageText,
      playerStat.total.description, playerStat.wins.description, playerStat.losses.description⟩ }

/-! ### The screen -/

structure StatsViewController where
  player : Option Player
  display : Option Display
  form : SlideUpForm
  checkmarkIsHidden : Bool
  pendingCheckmarks : Nat
  /-- The messages of the alerts presented so far. -/
  alerts : List String
deriving DecidableEq, Repr

namespace StatsViewController

/-- The screen as the storyboard builds it. -/
def initial : StatsViewController := ⟨none, none, .initial, true, 0, []⟩

def showStats (vc : StatsViewController) : Except Trap StatsViewController :=
  match vc.player with
  | none => .ok vc
  | some player => do
      let display ← player.display
      return { vc with display := some display }

def showAddMatchResultView (vc : StatsViewController) : StatsViewController :=
  { vc with form := vc.form.slideUp 500 }

def hideAddMatchResultView (vc : StatsViewController) : StatsViewController :=
  { vc with form := vc.form.slideDown }

def presentAlertWithMessage (message : String) (vc : StatsViewController) : StatsViewController :=
  { vc with alerts := vc.alerts ++ [message] }

def showCheckmark (vc : StatsViewController) : StatsViewController :=
  { vc with checkmarkIsHidden := false, pendingCheckmarks := vc.pendingCheckmarks + 1 }

/-- The completion of the earliest `showCheckmark` still pending. -/
def checkmarkCompleted (vc : StatsViewController) : StatsViewController :=
  if vc.pendingCheckmarks = 0 then vc
  else { vc with checkmarkIsHidden := true, pendingCheckmarks := vc.pendingCheckmarks - 1 }

/-- The `onFailed` closure of both updates. -/
def onUpdated (reply : Reply) (vc : StatsViewController) : StatsViewController :=
  match reply with
  | .done => vc
  | .onFailed => vc.presentAlertWithMessage "Could not save new match result."

def getCurrentValueFor (race : Race) (matchResult : ResultType) (vc : StatsViewController) :
    Option SwiftInt :=
  vc.player.map fun player => player.stats.counter matchResult race

end StatsViewController

/-- The `+= 1` that the nested `switch` of `addNewMatchResult` selects. -/
def Stats.addOne (stats : Stats) : ResultType → Race → Except Trap Stats
  | .win, .human => do
      let wins ← stats.vsHuman.wins.add 1
      return { stats with vsHuman := { stats.vsHuman with wins } }
  | .win, .elf => do
      let wins ← stats.vsElf.wins.add 1
      return { stats with vsElf := { stats.vsElf with wins } }
  | .win, .orc => do
      let wins ← stats.vsOrc.wins.add 1
      return { stats with vsOrc := { stats.vsOrc with wins } }
  | .win, .undead => do
      let wins ← stats.vsUndead.wins.add 1
      return { stats with vsUndead := { stats.vsUndead with wins } }
  | .lose, .human => do
      let losses ← stats.vsHuman.losses.add 1
      return { stats with vsHuman := { stats.vsHuman with losses } }
  | .lose, .elf => do
      let losses ← stats.vsElf.losses.add 1
      return { stats with vsElf := { stats.vsElf with losses } }
  | .lose, .orc => do
      let losses ← stats.vsOrc.losses.add 1
      return { stats with vsOrc := { stats.vsOrc with losses } }
  | .lose, .undead => do
      let losses ← stats.vsUndead.losses.add 1
      return { stats with vsUndead := { stats.vsUndead with losses } }

theorem Stats.addOne_eq (stats : Stats) (result : ResultType) (race : Race) :
    stats.addOne result race = do
      let value ← (stats.counter result race).add 1
      return stats.setCounter value result race := by
  cases result <;> cases race <;> rfl

namespace StatsViewController

variable {π : Type} [DataProviding π]

/-- The common end of the two updates: store the player, report a failure, show the
    stats. -/
def updateAndShow (player : Player) (write : Write) (vc : StatsViewController) (provider : π) :
    Except Trap (StatsViewController × π) := do
  let (provider, reply) ← DataProviding.updatePlayer player write provider
  let vc ← showStats (onUpdated reply { vc with player := some player })
  return (vc, provider)

def saveNewValue (newValue : SwiftInt) (race : Race) (matchResult : ResultType) (write : Write)
    (vc : StatsViewController) (provider : π) : Except Trap (StatsViewController × π) :=
  match vc.player with
  | none => .ok (vc, provider)
  | some player =>
      updateAndShow (player.setCounter newValue matchResult race) write vc provider

def addNewMatchResult (matchResult : MatchResult) (write : Write) (vc : StatsViewController)
    (provider : π) : Except Trap (StatsViewController × π) :=
  match vc.player with
  | none => .ok (vc, provider)
  | some player => do
      let stats ← player.stats.addOne matchResult.resultType matchResult.vsRace
      let (vc, provider) ← updateAndShow { player with stats } write vc provider
      return (vc.hideAddMatchResultView.showCheckmark, provider)

def updateStatsForPlayer (playerName : String) (vc : StatsViewController) (provider : π) :
    Except Trap StatsViewController :=
  showStats { vc with player := DataProviding.loadPlayer playerName provider }

end StatsViewController

/-! ### The display of a record -/

/-- The views show the player: its name and race, its counters, their sum for each
    race, and the sums over the races. -/
structure Display.Shows (display : Display) (player : Player) : Prop where
  name : display.playerView.name = player.name
  playerImageName : display.playerView.playerImageName = player.race.rawValue
  raceImageName : ∀ race, (display.versusView race).versusHeaderViewContent.raceImageName =
    race.rawValue
  wins : ∀ race, (display.versusView race).wins = (player.stats.counter .win race).description
  losses : ∀ race, (display.versusView race).losses = (player.stats.counter .lose race).description
  total : ∀ race, (display.versusView race).total =
    toString ((player.stats.counter .win race).val + (player.stats.counter .lose race).val)
  overallWins : display.playerView.wins = toString (player.stats.sum .win)
  overallLosses : display.playerView.losses = toString (player.stats.sum .lose)
  overallTotal : display.playerView.total = toString player.stats.total

/-- The parts of a display that `showStats` fills in separately. -/
theorem Display.shows_of_views {display : Display} {player : Player} {overall : Stat}
    (hviews : ∀ race, ∃ stat : Stat, display.versusView race = getVersusViewContent stat race ∧
      stat.Sums (player.stats.counter .win race) (player.stats.counter .lose race))
    (hplayer : display.playerView = ⟨player.race.rawValue, player.name, overall.percentageText,
      overall.total.description, overall.wins.description, overall.losses.description⟩)
    (hwins : overall.wins.val = player.stats.sum .win)
    (hlosses : overall.losses.val = player.stats.sum .lose)
    (htotal : overall.total.val = player.stats.total) : display.Shows player := by
  have hview : ∀ race, (display.versusView race).versusHeaderViewContent.raceImageName =
        race.rawValue ∧
      (display.versusView race).wins = (player.stats.counter .win race).description ∧
      (display.versusView race).losses = (player.stats.counter .lose race).description ∧
      (display.versusView race).total =
        toString ((player.stats.counter .win race).val +
          (player.stats.counter .lose race).val) := by
    intro race
    obtain ⟨stat, heq, hsums⟩ := hviews race
    rw [heq, ← hsums.total, ← hsums.wins, ← hsums.losses]
    exact ⟨rfl, rfl, rfl, rfl⟩
  refine ⟨by rw [hplayer], by rw [hplayer], fun race => (hview race).1,
    fun race => (hview race).2.1, fun race => (hview race).2.2.1,
    fun race => (hview race).2.2.2, ?_, ?_, ?_⟩
  · rw [hplayer, ← hwins]
    rfl
  · rw [hplayer, ← hlosses]
    rfl
  · rw [hplayer, ← htotal]
    rfl

/-- What `showStats` computes: a `Stat` for each race, and one for the sums over the
    races. -/
theorem Player.views_of_display {player : Player} {display : Display}
    (h : player.display = .ok display) :
    (∀ race, ∃ stat, calculateStat (player.stats.counter .win race)
        (player.stats.counter .lose race) = .ok stat ∧
      display.versusView race = getVersusViewContent stat race) ∧
    ∃ wins losses overall, calculateStat wins losses = .ok overall ∧
      wins.val = player.stats.sum .win ∧ losses.val = player.stats.sum .lose ∧
      display.playerView = ⟨player.race.rawValue, player.name, overall.percentageText,
        overall.total.description, overall.wins.description, overall.losses.description⟩ := by
  unfold Player.display at h
  obtain ⟨human, hhuman, h⟩ := bind_eq_ok.mp h
  obtain ⟨elf, helf, h⟩ := bind_eq_ok.mp h
  obtain ⟨orc, horc, h⟩ := bind_eq_ok.mp h
  obtain ⟨undead, hundead, h⟩ := bind_eq_ok.mp h
  obtain ⟨wins₁, hwins₁, h⟩ := bind_eq_ok.mp h
  obtain ⟨wins₂, hwins₂, h⟩ := bind_eq_ok.mp h
  obtain ⟨wins, hwins, h⟩ := bind_eq_ok.mp h
  obtain ⟨losses₁, hlosses₁, h⟩ := bind_eq_ok.mp h
  obtain ⟨losses₂, hlosses₂, h⟩ := bind_eq_ok.mp h
  obtain ⟨losses, hlosses, h⟩ := bind_eq_ok.mp h
  obtain ⟨overall, hoverall, h⟩ := bind_eq_ok.mp h
  cases h
  rw [SwiftInt.add_eq_ok] at hwins₁ hwins₂ hwins hlosses₁ hlosses₂ hlosses
  have hwinsSum : wins.val = player.stats.sum .win := by
    rw [hwins, hwins₂, hwins₁, (calculateStat_sums hhuman).wins, (calculateStat_sums helf).wins,
      (calculateStat_sums horc).wins, (calculateStat_sums hundead).wins]
    rfl
  have hlossesSum : losses.val = player.stats.sum .lose := by
    rw [hlosses, hlosses₂, hlosses₁, (calculateStat_sums hhuman).losses,
      (calculateStat_sums helf).losses, (calculateStat_sums horc).losses,
      (calculateStat_sums hundead).losses]
    rfl
  refine ⟨?_, wins, losses, overall, hoverall, hwinsSum, hlossesSum, rfl⟩
  intro race
  cases race with
  | human => exact ⟨human, hhuman, rfl⟩
  | elf => exact ⟨elf, helf, rfl⟩
  | orc => exact ⟨orc, horc, rfl⟩
  | undead => exact ⟨undead, hundead, rfl⟩

/-- What `showStats` computes shows the player. -/
theorem Player.shows_of_display {player : Player} {display : Display}
    (h : player.display = .ok display) : display.Shows player := by
  obtain ⟨hviews, wins, losses, overall, hoverall, hwins, hlosses, hplayer⟩ :=
    Player.views_of_display h
  have hsums := calculateStat_sums hoverall
  rw [← hsums.wins] at hwins
  rw [← hsums.losses] at hlosses
  have htotal : overall.total.val = player.stats.total := by
    rw [hsums.total, ← hsums.wins, ← hsums.losses, hwins, hlosses]
    rfl
  refine Display.shows_of_views ?_ hplayer hwins hlosses htotal
  intro race
  obtain ⟨stat, hstat, hview⟩ := hviews race
  exact ⟨stat, hview, calculateStat_sums hstat⟩

/-- A record whose counters are not negative is displayed, or its grand total
    overflows. -/
theorem Player.display_checked {player : Player} (h : player.stats.Nonneg) :
    Checked player.stats.total (fun _ => player.stats.total < 2 ^ 63) player.display := by
  have hwh := h .win .human
  have hwe := h .win .elf
  have hwo := h .win .orc
  have hwu := h .win .undead
  have hlh := h .lose .human
  have hle := h .lose .elf
  have hlo := h .lose .orc
  have hlu := h .lose .undead
  have htotal : player.stats.total = player.stats.sum .win + player.stats.sum .lose := rfl
  have hsumw : player.stats.sum .win = player.stats.vsHuman.wins.val +
    player.stats.vsElf.wins.val + player.stats.vsOrc.wins.val +
    player.stats.vsUndead.wins.val := rfl
  have hsuml : player.stats.sum .lose = player.stats.vsHuman.losses.val +
    player.stats.vsElf.losses.val + player.stats.vsOrc.losses.val +
    player.stats.vsUndead.losses.val := rfl
  simp only [Stats.counter] at hwh hwe hwo hwu hlh hle hlo hlu
  unfold Player.display
  refine (calculateStat_checked hwh hlh).bind (by omega) fun human hhuman => ?_
  refine (calculateStat_checked hwe hle).bind (by omega) fun elf helf => ?_
  refine (calculateStat_checked hwo hlo).bind (by omega) fun orc horc => ?_
  refine (calculateStat_checked hwu hlu).bind (by omega) fun undead hundead => ?_
  rw [hhuman.wins, helf.wins, horc.wins, hundead.wins, hhuman.losses, helf.losses, horc.losses,
    hundead.losses]
  refine (SwiftInt.add_checked hwh hwe).bind (by omega) fun wins hw => ?_
  refine (SwiftInt.add_checked (by omega) hwo).bind (by omega) fun wins hw => ?_
  refine (SwiftInt.add_checked (by omega) hwu).bind (by omega) fun wins hw => ?_
  refine (SwiftInt.add_checked hlh hle).bind (by omega) fun losses hl => ?_
  refine (SwiftInt.add_checked (by omega) hlo).bind (by omega) fun losses hl => ?_
  refine (SwiftInt.add_checked (by omega) hlu).bind (by omega) fun losses hl => ?_
  refine (calculateStat_checked (by omega) (by omega)).bind (by omega) fun overall hoverall => ?_
  have hmax := overall.total.upper
  have hsum := hoverall.total
  exact Checked.of_ok (by omega)

/-! ### What the handlers do -/

/-- The messages of a write. -/
def Write.updateAlerts : Write → List String
  | .succeeds => []
  | .fails => ["Could not save new match result."]

namespace StatsViewController

variable {vc : StatsViewController}

theorem onUpdated_eq (write : Write) (vc : StatsViewController) :
    onUpdated write.reply vc = { vc with alerts := vc.alerts ++ write.updateAlerts } := by
  cases write with
  | succeeds =>
    simp only [Write.reply, onUpdated, Write.updateAlerts, List.append_nil]
  | fails => rfl

theorem showStats_of_some {player : Player} (hplayer : vc.player = some player) :
    vc.showStats = do
      let display ← player.display
      return { vc with display := some display } := by
  simp only [showStats, hplayer]

variable {π : Type} [DataProviding π]

theorem updateStatsForPlayer_of_none {provider : π} {playerName : String}
    (h : DataProviding.loadPlayer playerName provider = none) (vc : StatsViewController) :
    updateStatsForPlayer playerName vc provider = .ok { vc with player := none } := by
  simp only [updateStatsForPlayer, h, showStats]

theorem updateStatsForPlayer_of_some {provider : π} {playerName : String} {player : Player}
    (h : DataProviding.loadPlayer playerName provider = some player) (vc : StatsViewController) :
    updateStatsForPlayer playerName vc provider = do
      let display ← player.display
      return { vc with player := some player, display := some display } := by
  rw [updateStatsForPlayer, h]
  exact showStats_of_some rfl

/-- The player held afterwards is the one loaded, and it is displayed. -/
theorem updateStatsForPlayer_eq_ok {provider : π} {playerName : String}
    {vc' : StatsViewController} (h : updateStatsForPlayer playerName vc provider = .ok vc') :
    vc'.player = DataProviding.loadPlayer playerName provider ∧
      ∀ player, vc'.player = some player →
        ∃ display, player.display = .ok display ∧ vc'.display = some display := by
  rcases hload : DataProviding.loadPlayer playerName provider with _ | player
  · rw [updateStatsForPlayer_of_none hload] at h
    cases h
    exact ⟨rfl, fun player hplayer => by cases hplayer⟩
  · rw [updateStatsForPlayer_of_some hload] at h
    obtain ⟨display, hdisplay, h⟩ := bind_eq_ok.mp h
    cases h
    refine ⟨rfl, ?_⟩
    intro player' hplayer'
    cases hplayer'
    exact ⟨display, hdisplay, rfl⟩

variable [LawfulProvider π]

/-- The screen and the provider after an update that went as far as the display: the
    player is held, displayed and, if the write went through, stored. -/
structure Updated (player : Player) (write : Write) (provider : π)
    (after : StatsViewController × π) : Prop where
  held : after.1.player = some player
  shown : ∃ display, player.display = .ok display ∧ after.1.display = some display
  ready : LawfulProvider.Ready after.2
  stored : LawfulProvider.contents after.2 = write.choose (LawfulProvider.contents provider)
    ((LawfulProvider.contents provider).insert player.name player.record)

/-- The player is stored whatever the display does. -/
theorem updateAndShow_eq {provider : π} (hready : LawfulProvider.Ready provider)
    (player : Player) (write : Write) (vc : StatsViewController) :
    ∃ provider', LawfulProvider.Ready provider' ∧
      LawfulProvider.contents provider' = write.choose (LawfulProvider.contents provider)
        ((LawfulProvider.contents provider).insert player.name player.record) ∧
      updateAndShow player write vc provider = do
        let display ← player.display
        return ({ vc with player := some player, display := some display,
                          alerts := vc.alerts ++ write.updateAlerts }, provider') := by
  obtain ⟨provider', hupdate, hready', hcontents⟩ :=
    LawfulProvider.updatePlayer_eq hready player write
  refine ⟨provider', hready', hcontents, ?_⟩
  unfold updateAndShow
  rw [hupdate]
  show (do
    let vc ← showStats (onUpdated write.reply { vc with player := some player })
    return (vc, provider')) = _
  rw [onUpdated_eq, showStats_of_some rfl, bind_assoc]
  rfl

theorem updated_of_eq_ok {provider : π} (hready : LawfulProvider.Ready provider)
    {player : Player} {write : Write} {after : StatsViewController × π}
    (h : updateAndShow player write vc provider = .ok after) :
    Updated player write provider after := by
  obtain ⟨provider', hready', hcontents, heq⟩ := updateAndShow_eq hready player write vc
  rw [heq] at h
  obtain ⟨display, hdisplay, h⟩ := bind_eq_ok.mp h
  cases h
  exact ⟨rfl, ⟨display, hdisplay, rfl⟩, hready', hcontents⟩

end StatsViewController

/-! ### Events of the screen -/

/-- What the edit alert saves: the value `Int(text)` gives for a text of digits. -/
structure EditedValue where
  value : SwiftInt
  nonneg : 0 ≤ value.val
deriving DecidableEq, Repr

/-- What can happen on the stats screen while it is not covered. -/
inductive StatsEvent where
  | addNewMatchResult (matchResult : MatchResult) (write : Write)
  | saveNewValue (newValue : EditedValue) (race : Race) (matchResult : ResultType) (write : Write)
  | addMatchButtonTapped
  | tappedOnBackground
  | unblurCompleted
  | checkmarkCompleted
deriving DecidableEq, Repr

def StatsViewController.handle {π : Type} [DataProviding π] (vc : StatsViewController)
    (provider : π) : StatsEvent → Except Trap (StatsViewController × π)
  | .addNewMatchResult matchResult write => vc.addNewMatchResult matchResult write provider
  | .saveNewValue newValue race matchResult write =>
      vc.saveNewValue newValue.value race matchResult write provider
  | .addMatchButtonTapped => .ok (vc.showAddMatchResultView, provider)
  | .tappedOnBackground => .ok (vc.hideAddMatchResultView, provider)
  | .unblurCompleted => .ok ({ vc with form := vc.form.unblurCompleted }, provider)
  | .checkmarkCompleted => .ok (vc.checkmarkCompleted, provider)

/-- The two events that update the player. -/
def StatsEvent.isUpdate : StatsEvent → Bool
  | .addNewMatchResult _ _ => true
  | .saveNewValue _ _ _ _ => true
  | _ => false

/-- The completion of an animation. -/
def StatsEvent.isCompletion : StatsEvent → Bool
  | .unblurCompleted => true
  | .checkmarkCompleted => true
  | _ => false

theorem StatsEvent.isUpdate_of_isCompletion {e : StatsEvent} (h : e.isCompletion = true) :
    e.isUpdate = false := by
  cases e <;> first | rfl | cases h

/-- The event sets one counter of the player to a value: an edit to its new value,
    a match result to the next one. -/
inductive StatsEvent.Sets (player : Player) :
    StatsEvent → SwiftInt → ResultType → Race → Write → Prop
  | saveNewValue (newValue : EditedValue) (race : Race) (matchResult : ResultType)
      (write : Write) :
      Sets player (.saveNewValue newValue race matchResult write) newValue.value matchResult race
        write
  | addNewMatchResult (matchResult : MatchResult) (write : Write) {value : SwiftInt}
      (h : value.val = (player.stats.counter matchResult.resultType matchResult.vsRace).val + 1) :
      Sets player (.addNewMatchResult matchResult write) value matchResult.resultType
        matchResult.vsRace write

theorem StatsEvent.Sets.isUpdate {player : Player} {event : StatsEvent} {value : SwiftInt}
    {result : ResultType} {race : Race} {write : Write}
    (h : event.Sets player value result race write) : event.isUpdate = true := by
  cases h <;> rfl

namespace StatsViewController

variable {π : Type} [DataProviding π] {vc : StatsViewController} {provider : π}

/-- `addNewMatchResult` is the checked `+= 1` and then the common update. -/
theorem addNewMatchResult_of_some {player : Player} (hplayer : vc.player = some player)
    (matchResult : MatchResult) (write : Write) (provider : π) :
    vc.addNewMatchResult matchResult write provider = do
      let value ← (player.stats.counter matchResult.resultType matchResult.vsRace).add 1
      let (vc, provider) ← updateAndShow
        (player.setCounter value matchResult.resultType matchResult.vsRace) write vc provider
      return (vc.hideAddMatchResultView.showCheckmark, provider) := by
  simp only [addNewMatchResult, hplayer, Stats.addOne_eq, bind_assoc, pure_bind]
  rfl

theorem saveNewValue_of_some {player : Player} (hplayer : vc.player = some player)
    (newValue : SwiftInt) (race : Race) (matchResult : ResultType) (write : Write)
    (provider : π) :
    vc.saveNewValue newValue race matchResult write provider =
      updateAndShow (player.setCounter newValue matchResult race) write vc provider := by
  simp only [saveNewValue, hplayer]

/-- An event leaves the player, the display and the provider alone, or it sets one
    counter of the player, stores it and shows it. -/
theorem handle_eq_ok [LawfulProvider π] (hready : LawfulProvider.Ready provider)
    {event : StatsEvent} {after : StatsViewController × π}
    (h : vc.handle provider event = .ok after) :
    ((vc.player = none ∨ event.isUpdate = false) ∧
        after.1.player = vc.player ∧ after.1.display = vc.display ∧ after.2 = provider) ∨
      ∃ player value result race write, vc.player = some player ∧
        event.Sets player value result race write ∧
        Updated (player.setCounter value result race) write provider after := by
  cases event with
  | addNewMatchResult matchResult write =>
    rcases hplayer : vc.player with _ | player
    · simp only [handle, addNewMatchResult, hplayer] at h
      cases h
      exact Or.inl ⟨Or.inl rfl, hplayer, rfl, rfl⟩
    · right
      rw [handle, addNewMatchResult_of_some hplayer] at h
      obtain ⟨value, hvalue, h⟩ := bind_eq_ok.mp h
      obtain ⟨shown, hshown, h⟩ := bind_eq_ok.mp h
      cases h
      obtain ⟨hheld, hdisplay, hready', hstored⟩ := updated_of_eq_ok hready hshown
      exact ⟨player, value, _, _, write, rfl,
        .addNewMatchResult matchResult write (SwiftInt.add_eq_ok.mp hvalue),
        hheld, hdisplay, hready', hstored⟩
  | saveNewValue newValue race matchResult write =>
    rcases hplayer : vc.player with _ | player
    · simp only [handle, saveNewValue, hplayer] at h
      cases h
      exact Or.inl ⟨Or.inl rfl, hplayer, rfl, rfl⟩
    · right
      rw [handle, saveNewValue_of_some hplayer] at h
      exact ⟨player, _, _, _, write, rfl, .saveNewValue newValue race matchResult write,
        updated_of_eq_ok hready h⟩
  | addMatchButtonTapped =>
    cases h
    exact Or.inl ⟨Or.inr rfl, rfl, rfl, rfl⟩
  | tappedOnBackground =>
    cases h
    exact Or.inl ⟨Or.inr rfl, rfl, rfl, rfl⟩
  | unblurCompleted =>
    cases h
    exact Or.inl ⟨Or.inr rfl, rfl, rfl, rfl⟩
  | checkmarkCompleted =>
    cases h
    left
    unfold checkmarkCompleted
    split <;> exact ⟨Or.inr rfl, rfl, rfl, rfl⟩

end StatsViewController

end W3Stats

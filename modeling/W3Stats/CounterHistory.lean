import W3Stats.App

/-!
# What the counters have been through

As long as every write goes through, the store is the replay of what was done on
the two screens: each stored player has the race it was added with and, for each
of its eight counters, the value that the edits and the match results since then
give.  The stats screen works on a copy of the record and writes all of it back,
so the replay holds only because that copy equals the record whenever the screen
is not covered.
-/

namespace W3Stats

open StepMachine

/-! ### Replay -/

/-- A race and the exact values of eight counters. -/
@[ext] structure Score where
  race : Race
  counter : ResultType → Race → Int

namespace Score

/-- The score of a player just added. -/
def new (race : Race) : Score := ⟨race, fun _ _ => 0⟩

def setCounter (score : Score) (newValue : Int) (result : ResultType) (race : Race) : Score :=
  { score with
    counter := fun result' race' =>
      if result' = result ∧ race' = race then newValue else score.counter result' race' }

end Score

def Player.score (player : Player) : Score :=
  ⟨player.race, fun result race => (player.stats.counter result race).val⟩

theorem Player.score_setCounter (player : Player) (newValue : SwiftInt) (result : ResultType)
    (race : Race) : (player.setCounter newValue result race).score =
      player.score.setCounter newValue.val result race := by
  apply Score.ext
  · rfl
  · funext result' race'
    show ((player.stats.setCounter newValue result race).counter result' race').val = _
    rw [Stats.counter_setCounter, apply_ite SwiftInt.val]
    rfl

theorem Player.score_new (name : String) (race : Race) :
    Player.score ⟨name, race, .empty⟩ = .new race := by
  apply Score.ext
  · rfl
  · funext result race'
    cases result <;> cases race' <;> rfl

/-- What the user did to a player. -/
inductive PlayerAction where
  | addNewPlayer (name : String) (race : Race)
  | deletePlayer (name : String)
  | saveNewValue (name : String) (newValue : Int) (race : Race) (matchResult : ResultType)
  | addNewMatchResult (name : String) (matchResult : MatchResult)
deriving DecidableEq, Repr

/-- What an action makes of the score of the player of a name. -/
def PlayerAction.replay (name : String) (score : Option Score) : PlayerAction → Option Score
  | .addNewPlayer name' race => if name' = name then some (.new race) else score
  | .deletePlayer name' => if name' = name then none else score
  | .saveNewValue name' newValue race matchResult =>
      if name' = name then score.map fun s => s.setCounter newValue matchResult race else score
  | .addNewMatchResult name' matchResult =>
      if name' = name then
        score.map fun s => s.setCounter (s.counter matchResult.resultType matchResult.vsRace + 1)
          matchResult.resultType matchResult.vsRace
      else score

/-- The score of a player after a history. -/
def scoreAfter (name : String) (score : Option Score) (history : List PlayerAction) :
    Option Score := history.foldl (PlayerAction.replay name) score

/-- Only what happened since the player was last added counts. -/
theorem scoreAfter_added (name : String) (race : Race) (score : Option Score)
    (before after : List PlayerAction) :
    scoreAfter name score (before ++ .addNewPlayer name race :: after) =
      scoreAfter name (some (.new race)) after := by
  simp [scoreAfter, PlayerAction.replay]

/-! ### Scores in the store -/

namespace PlayerMap

/-- The score of the player of a name. -/
def score (map : PlayerMap) (name : String) : Option Score := (map.loadPlayer name).map Player.score

theorem score_insert_self (map : PlayerMap) (player : Player) :
    score (map.insert player.name player.record) player.name = some player.score := by
  rw [score, loadPlayer_insert_self]
  rfl

theorem score_insert_of_ne (map : PlayerMap) (player : Player) {name : String}
    (h : name ≠ player.name) :
    score (map.insert player.name player.record) name = score map name := by
  rw [score, loadPlayer_insert_of_ne player h, score]

theorem score_insert_new (map : PlayerMap) (key : String) (race : Race) (name : String) :
    score (map.insert key ⟨race, .empty⟩) name =
      PlayerAction.replay name (score map name) (.addNewPlayer key race) := by
  rw [PlayerAction.replay]
  by_cases hname : key = name
  · rw [if_pos hname, ← hname, ← Player.score_new key]
    exact score_insert_self map ⟨key, race, .empty⟩
  · rw [if_neg hname]
    exact score_insert_of_ne map ⟨key, race, .empty⟩ (Ne.symm hname)

theorem score_erase (map : PlayerMap) (key name : String) :
    score (map.erase key) name =
      PlayerAction.replay name (score map name) (.deletePlayer key) := by
  rw [PlayerAction.replay]
  by_cases hname : key = name
  · rw [if_pos hname, ← hname, score, loadPlayer_erase_self]
    rfl
  · rw [if_neg hname, score, loadPlayer_erase_of_ne (Ne.symm hname), score]

end PlayerMap

/-! ### Actions and writes of events -/

namespace StatsEvent

def write? : StatsEvent → Option Write
  | .addNewMatchResult _ write => some write
  | .saveNewValue _ _ _ write => some write
  | _ => none

/-- The counter an update is aimed at. -/
def target? : StatsEvent → Option (ResultType × Race)
  | .addNewMatchResult matchResult _ => some (matchResult.resultType, matchResult.vsRace)
  | .saveNewValue _ race matchResult _ => some (matchResult, race)
  | _ => none

/-- What an event does to the player of the name that is held. -/
def action? (name : String) : StatsEvent → Option PlayerAction
  | .addNewMatchResult matchResult _ => some (.addNewMatchResult name matchResult)
  | .saveNewValue newValue race matchResult _ =>
      some (.saveNewValue name newValue.value.val race matchResult)
  | _ => none

theorem action?_of_not_isUpdate {e : StatsEvent} (h : e.isUpdate = false) (name : String) :
    e.action? name = none := by
  cases e <;> first | rfl | cases h

variable {e : StatsEvent} {held : Player} {value : SwiftInt} {result : ResultType}
  {race : Race} {write : Write}

theorem Sets.write?_eq (h : e.Sets held value result race write) : e.write? = some write := by
  cases h <;> rfl

theorem Sets.target?_eq (h : e.Sets held value result race write) :
    e.target? = some (result, race) := by
  cases h <;> rfl

/-- The action of an update sets the same counter to the same value. -/
theorem Sets.replay (h : e.Sets held value result race write) :
    scoreAfter held.name (some held.score) (e.action? held.name).toList =
      some (held.setCounter value result race).score := by
  rw [Player.score_setCounter]
  cases h with
  | saveNewValue newValue race matchResult write => simp [action?, scoreAfter, PlayerAction.replay]
  | addNewMatchResult matchResult write hnext =>
    simp [action?, scoreAfter, PlayerAction.replay, hnext, Player.score]

theorem scoreAfter_action?_of_ne {name : String} (h : name ≠ held.name) (e : StatsEvent)
    (score : Option Score) : scoreAfter name score (e.action? held.name).toList = score := by
  have hne : ¬ held.name = name := fun heq => h heq.symm
  cases e <;> simp [action?, scoreAfter, PlayerAction.replay, hne]

end StatsEvent

def PlayersEvent.write? : PlayersEvent → Option Write
  | .tapOnSave write => some write
  | .commitDelete _ write => some write
  | _ => none

def AppEvent.write? : AppEvent → Option Write
  | .stats e => e.write?
  | .players e => e.write?
  | _ => none

namespace App

variable {π : Type} [DataProviding π]

/-- What an event does to a player. -/
def action? (app : App π) : AppEvent → Option PlayerAction
  | .stats e =>
      if app.Takes e then app.stats.player.bind fun player => e.action? player.name else none
  | .players (.tapOnSave _) =>
      app.top.bind fun (_, vc) =>
        if vc.form.IsOpen ∧ vc.addPlayerView.saveButtonIsEnabled then
          some (.addNewPlayer vc.addPlayerView.playerResult.name
            vc.addPlayerView.playerResult.race)
        else none
  | .players (.commitDelete row _) =>
      app.top.bind fun (_, vc) => vc.players[row]?.map fun player => .deletePlayer player.name
  | _ => none

/-- What a run from a launch did to the players. -/
def history (count : String → Nat) (provider : π) (events : List AppEvent) : List PlayerAction :=
  account (step count) (fun actions app event => actions ++ (app.action? event).toList) []
    (launch provider) events

end App

/-! ### The player held is the record stored -/

namespace StatsViewController

variable {π : Type} [DataProviding π]

/-- A player that is held equals the record stored under its name, and it is what
    the views show and what the edit alert starts with. -/
structure InSync (vc : StatsViewController) (provider : π) : Prop where
  stored : ∀ player, vc.player = some player →
    DataProviding.loadPlayer player.name provider = some player
  shown : ∀ player, vc.player = some player →
    ∃ display, vc.display = some display ∧ display.Shows player
  currentValue : ∀ player, vc.player = some player → ∀ race matchResult,
    vc.getCurrentValueFor race matchResult = some (player.stats.counter matchResult race)

theorem inSync_of {vc : StatsViewController} {provider : π}
    (hstored : ∀ player, vc.player = some player →
      DataProviding.loadPlayer player.name provider = some player)
    (hshown : ∀ player, vc.player = some player →
      ∃ display, player.display = .ok display ∧ vc.display = some display) :
    vc.InSync provider := by
  refine ⟨hstored, fun player hplayer => ?_, fun player hplayer race matchResult => ?_⟩
  · obtain ⟨display, hdisplay, hvc⟩ := hshown player hplayer
    exact ⟨display, hvc, Player.shows_of_display hdisplay⟩
  · rw [getCurrentValueFor, hplayer]
    rfl

theorem InSync.of_eq {vc vc' : StatsViewController} {provider provider' : π}
    (h : vc.InSync provider) (hplayer : vc'.player = vc.player)
    (hdisplay : vc'.display = vc.display) (hprovider : provider' = provider) :
    vc'.InSync provider' := by
  subst hprovider
  refine ⟨?_, ?_, ?_⟩
  · rw [hplayer]
    exact h.stored
  · rw [hplayer, hdisplay]
    exact h.shown
  · rw [hplayer]
    intro player hheld race matchResult
    rw [← h.currentValue player hheld race matchResult, getCurrentValueFor, getCurrentValueFor,
      hplayer]

end StatsViewController

namespace App

variable {π : Type} [DataProviding π] [LawfulProvider π]
variable {app app' : App π} {event : AppEvent}

/-- A handler of the stats screen runs: an event on the screen while it is not
    covered, or the selection of a row. -/
def RunsStatsHandler (app : App π) : AppEvent → Prop
  | .stats _ => app.presented = none
  | .changePlayerTapped => app.presented = none
  | .runBlock position _ => ∃ screen row vc,
      app.queue[position]? = some (.selectRow screen row) ∧ app.screens[screen]? = some vc
  | _ => False

/-- While the stats screen is not covered, and after each of its handlers, the player
    held is the record stored. -/
theorem Did.inSync (hdid : Did app event app') (hready : LawfulProvider.Ready app.provider)
    (hsync : app.presented = none → app.stats.InSync app.provider)
    (hwrite : event.write? ≠ some .fails)
    (h : app'.presented = none ∨ app.RunsStatsHandler event) :
    app'.stats.InSync app'.provider := by
  cases hdid with
  | quiet idle provider player display covered =>
    have hnone : app.presented = none := by
      rcases h with hnone | hruns
      · exact covered hnone
      · cases event with
        | stats e => exact hruns
        | changePlayerTapped => exact hruns
        | players e => exact hruns.elim
        | didSelectRow row => exact hruns.elim
        | runBlock position obeyed =>
          obtain ⟨screen, row, vc, hblock, hscreen⟩ := hruns
          have habsent := idle screen row hblock
          rw [hscreen] at habsent
          cases habsent
    exact (hsync hnone).of_eq player display provider
  | @updated e app' held value result race write uncovered player sets updated =>
    have hready' : LawfulProvider.Ready app'.provider := updated.ready
    have hsucceeds : write = .succeeds :=
      Write.eq_succeeds fun hfails => hwrite (hfails ▸ sets.write?_eq)
    apply StatsViewController.inSync_of
    · intro current hcurrent
      rw [updated.held] at hcurrent
      cases hcurrent
      rw [LawfulProvider.loadPlayer_eq _ _ hready', updated.stored, hsucceeds]
      exact PlayerMap.loadPlayer_insert_self _ _
    · intro current hcurrent
      rw [updated.held] at hcurrent
      cases hcurrent
      exact updated.shown
  | saved top accepted fresh ready' stored' stats presented =>
    rcases h with hnone | hruns
    · rw [presented, presented_of_top top] at hnone
      cases hnone
    · exact hruns.elim
  | deleted top listedAt ready' stored' stats presented =>
    rcases h with hnone | hruns
    · rw [presented, presented_of_top top] at hnone
      cases hnone
    · exact hruns.elim
  | selected hplayer hshown provider =>
    apply StatsViewController.inSync_of
    · intro current hcurrent
      rw [hplayer] at hcurrent
      have hname := hcurrent
      rw [LawfulProvider.loadPlayer_eq _ _ hready, PlayerMap.loadPlayer_eq_some] at hname
      rw [provider, hname.1]
      exact hcurrent
    · exact hshown

/-! ### The store is the replay -/

omit [DataProviding π] [LawfulProvider π] in
theorem Idle.action?_eq_none (h : app.Idle event) : app.action? event = none := by
  cases event with
  | stats e =>
    by_cases htakes : app.Takes e
    · rw [action?, if_pos htakes]
      rcases hplayer : app.stats.player with _ | player
      · rfl
      · apply StatsEvent.action?_of_not_isUpdate
        by_contra hupdate
        rw [Bool.not_eq_false] at hupdate
        rcases h (htakes.presented_eq_none hupdate) with hno | hno
        · rw [hplayer] at hno
          cases hno
        · rw [hupdate] at hno
          cases hno
    · rw [action?, if_neg htakes]
  | players e =>
    cases e with
    | tapOnSave write =>
      rcases htop : app.top with _ | ⟨i, vc⟩
      · simp [action?, htop]
      · simp only [action?, htop, Option.bind_some]
        exact if_neg (h i vc htop)
    | commitDelete row write =>
      rcases htop : app.top with _ | ⟨i, vc⟩
      · simp [action?, htop]
      · have hrow : vc.players[row]? = none := h i vc htop
        simp [action?, htop, hrow]
    | _ => rfl
  | _ => rfl

/-- A step does to the store what its action does to the scores. -/
theorem Did.score_eq (hdid : Did app event app') (hready : LawfulProvider.Ready app.provider)
    (hsync : app.presented = none → app.stats.InSync app.provider)
    (hwrite : event.write? ≠ some .fails) (name : String) :
    (LawfulProvider.contents app'.provider).score name =
      scoreAfter name ((LawfulProvider.contents app.provider).score name)
        (app.action? event).toList := by
  cases hdid with
  | quiet idle provider =>
    rw [provider, idle.action?_eq_none]
    rfl
  | @updated e app' held value result race write uncovered player sets updated =>
    have hsucceeds : write = .succeeds :=
      Write.eq_succeeds fun hfails => hwrite (hfails ▸ sets.write?_eq)
    have htakes : app.Takes e := Or.inl uncovered
    have haction : app.action? (.stats e) = e.action? held.name := by
      rw [action?, if_pos htakes, player]
      rfl
    have hheld := (hsync uncovered).stored held player
    rw [LawfulProvider.loadPlayer_eq _ _ hready] at hheld
    rw [haction, updated.stored, hsucceeds, Write.choose]
    by_cases hname : name = held.name
    · subst hname
      have hscore : (LawfulProvider.contents app.provider).score held.name = some held.score := by
        rw [PlayerMap.score, hheld]
        rfl
      rw [hscore, sets.replay]
      exact PlayerMap.score_insert_self _ (held.setCounter value result race)
    · rw [StatsEvent.scoreAfter_action?_of_ne hname]
      exact PlayerMap.score_insert_of_ne _ (held.setCounter value result race) hname
  | @saved write app' i vc top accepted fresh ready' stored' stats presented =>
    have hsucceeds : write = .succeeds := Write.eq_succeeds fun hfails => hwrite (hfails ▸ rfl)
    have haction : app.action? (.players (.tapOnSave write)) =
        some (.addNewPlayer vc.addPlayerView.playerResult.name
          vc.addPlayerView.playerResult.race) := by
      simp only [action?, top, Option.bind_some]
      exact if_pos accepted
    rw [haction, stored', hsucceeds]
    exact PlayerMap.score_insert_new _ _ _ name
  | @deleted row write app' i vc listed top listedAt ready' stored' stats presented =>
    have hsucceeds : write = .succeeds := Write.eq_succeeds fun hfails => hwrite (hfails ▸ rfl)
    have haction : app.action? (.players (.commitDelete row write)) =
        some (.deletePlayer listed.name) := by
      simp only [action?, top, Option.bind_some, listedAt, Option.map_some]
    rw [haction, stored', hsucceeds]
    exact PlayerMap.score_erase _ _ name
  | selected player shown provider =>
    rw [provider]
    rfl

/-- The invariant of a run: the store is the replay of the history, and the player
    held is in sync while the stats screen is not covered. -/
structure Replayed (initial : String → Option Score) (actions : List PlayerAction)
    (app : App π) : Prop where
  ready : LawfulProvider.Ready app.provider
  inSync : app.presented = none → app.stats.InSync app.provider
  replayed : ∀ name, (LawfulProvider.contents app.provider).score name =
    scoreAfter name (initial name) actions

theorem replayed_launch {provider : π} (h : LawfulProvider.Ready provider) :
    Replayed (LawfulProvider.contents provider).score [] (launch provider) := by
  refine ⟨h, fun _ => ?_, fun name => rfl⟩
  apply StatsViewController.inSync_of <;>
    · intro player hplayer
      cases hplayer

theorem Replayed.step {count : String → Nat} {initial : String → Option Score}
    {actions : List PlayerAction} (h : Replayed initial actions app)
    (hwrite : event.write? ≠ some .fails) (hstep : app.step count event = .ok app') :
    Replayed initial (actions ++ (app.action? event).toList) app' := by
  have hdid := did_of_step h.ready hstep
  refine ⟨hdid.ready h.ready, fun hnone => hdid.inSync h.ready h.inSync hwrite (Or.inl hnone),
    fun name => ?_⟩
  rw [hdid.score_eq h.ready h.inSync hwrite, h.replayed name, scoreAfter, scoreAfter, scoreAfter,
    List.foldl_append]

/-! ### One counter at a time -/

/-- The event is aimed at one counter of the player held. -/
def AimsAt (app : App π) (event : AppEvent) (name : String) (result : ResultType)
    (race : Race) : Prop :=
  ∃ e player, event = .stats e ∧ app.Takes e ∧ app.stats.player = some player ∧
    player.name = name ∧ e.target? = some (result, race)

/-- Between two stores one counter of one player may differ and nothing else. -/
structure OnlyCounter (provider provider' : π) (name : String) (result : ResultType)
    (race : Race) : Prop where
  others : ∀ name', name' ≠ name →
    DataProviding.loadPlayer name' provider' = DataProviding.loadPlayer name' provider
  counters : ∃ player player', DataProviding.loadPlayer name provider = some player ∧
    DataProviding.loadPlayer name provider' = some player' ∧ player'.race = player.race ∧
    ∀ result' race', (result', race') ≠ (result, race) →
      player'.stats.counter result' race' = player.stats.counter result' race'

theorem Did.onlyCounter (hdid : Did app event app') (hready : LawfulProvider.Ready app.provider)
    (hsync : app.presented = none → app.stats.InSync app.provider)
    (hwrite : event.write? ≠ some .fails) {name : String} {result : ResultType} {race : Race}
    (haims : app.AimsAt event name result race) :
    OnlyCounter app.provider app'.provider name result race := by
  obtain ⟨e, held, rfl, htakes, hheld, rfl, htarget⟩ := haims
  have hupdate : e.isUpdate = true := by
    cases e <;> first | rfl | cases htarget
  have hnone := htakes.presented_eq_none hupdate
  cases hdid with
  | quiet idle =>
    rcases idle hnone with hno | hno
    · rw [hheld] at hno
      cases hno
    · rw [hno] at hupdate
      cases hupdate
  | @updated e app' player value result' race' write uncovered hplayer sets updated =>
    rw [hheld] at hplayer
    cases hplayer
    rw [sets.target?_eq] at htarget
    cases htarget
    have hready' : LawfulProvider.Ready app'.provider := updated.ready
    have hsucceeds : write = .succeeds :=
      Write.eq_succeeds fun hfails => hwrite (hfails ▸ sets.write?_eq)
    have hcontents : LawfulProvider.contents app'.provider =
        (LawfulProvider.contents app.provider).insert held.name
          (held.setCounter value result race).record := by
      rw [updated.stored, hsucceeds]
      rfl
    refine ⟨fun name' hname => ?_, held, held.setCounter value result race,
      (hsync hnone).stored held hheld, ?_, rfl, ?_⟩
    · rw [LawfulProvider.loadPlayer_eq _ _ hready', LawfulProvider.loadPlayer_eq _ _ hready,
        hcontents]
      exact PlayerMap.loadPlayer_insert_of_ne (held.setCounter value result race) hname
    · rw [LawfulProvider.loadPlayer_eq _ _ hready', hcontents]
      exact PlayerMap.loadPlayer_insert_self _ (held.setCounter value result race)
    · intro result' race' hne
      exact Stats.counter_setCounter_of_ne held.stats value hne

/-! ### Whole runs -/

/-- **The store is the replay, and the stats screen shows it.**  Take any run from a
    launch over any store in which no write fails.  Each stored player has the race
    and the eight counters that its history gives.  A further event aimed at one
    counter changes that counter of that player and nothing else, and after a
    further handler of the stats screen the player held is the record stored and
    the views show its counters and their sums. -/
theorem counters_of_run (count : String → Nat) (realm : Realm) (hready : realm.Ready)
    (events : List AppEvent) (hwrites : ∀ event ∈ events, event.write? ≠ some .fails)
    {app : App Realm} (hrun : run (step count) (launch realm) events = .ok app) :
    (∀ name, (RealmDataProvider.loadPlayer name app.provider).map Player.score =
        scoreAfter name ((RealmDataProvider.loadPlayer name realm).map Player.score)
          (history count realm events)) ∧
      ∀ event app', event.write? ≠ some .fails → app.step count event = .ok app' →
        (∀ name result race, app.AimsAt event name result race →
          OnlyCounter app.provider app'.provider name result race) ∧
        (app.RunsStatsHandler event → app'.stats.InSync app'.provider) := by
  have hkeeps : ∀ actions (app : App Realm) event app',
      Replayed realm.contents.score actions app → event.write? ≠ some .fails →
      app.step count event = .ok app' →
      Replayed realm.contents.score (actions ++ (app.action? event).toList) app' :=
    fun actions app event app' h => h.step
  have hend : Replayed realm.contents.score (history count realm events) app :=
    run_account hkeeps (replayed_launch hready) hwrites hrun
  constructor
  · intro name
    rw [RealmDataProvider.loadPlayer_eq hend.ready, RealmDataProvider.loadPlayer_eq hready]
    exact hend.replayed name
  · intro event app' hwrite hstep
    have hdid := did_of_step hend.ready hstep
    exact ⟨fun name result race => hdid.onlyCounter hend.ready hend.inSync hwrite,
      fun hruns => hdid.inSync hend.ready hend.inSync hwrite (Or.inr hruns)⟩

/-- A player is added, selected, wins a match, is corrected to five wins and wins
    another. -/
def winsAndEdits : List AppEvent :=
  [.runBlock 0 true, .players (.type "abc"), .players (.tapOnSave .succeeds), .didSelectRow 0,
    .runBlock 0 true, .stats (.addNewMatchResult ⟨.orc, .win⟩ .succeeds),
    .stats (.saveNewValue ⟨⟨5, by decide, by decide⟩, by decide⟩ .orc .win .succeeds),
    .stats (.addNewMatchResult ⟨.orc, .win⟩ .succeeds)]

theorem counters_of_run_winsAndEdits :
    ∃ app, run (step String.length) (launch (Realm.opened Group.empty)) winsAndEdits = .ok app ∧
      (∀ name, (RealmDataProvider.loadPlayer name app.provider).map Player.score =
        scoreAfter name
          ((RealmDataProvider.loadPlayer name (Realm.opened Group.empty)).map Player.score)
          (history String.length (Realm.opened Group.empty) winsAndEdits)) ∧
      ∀ event app', event.write? ≠ some .fails → app.step String.length event = .ok app' →
        (∀ name result race, app.AimsAt event name result race →
          OnlyCounter app.provider app'.provider name result race) ∧
        (app.RunsStatsHandler event → app'.stats.InSync app'.provider) := by
  have hok : (run (step String.length) (launch (Realm.opened Group.empty))
      winsAndEdits).toOption.isSome = true := by
    decide +kernel
  rcases hrun : run (step String.length) (launch (Realm.opened Group.empty)) winsAndEdits with
    trap | app
  · rw [hrun] at hok
    cases hok
  · exact ⟨app, rfl, counters_of_run String.length _ Realm.ready_empty winsAndEdits (by decide)
      hrun⟩

end App

end W3Stats

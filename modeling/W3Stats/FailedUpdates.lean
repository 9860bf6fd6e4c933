import W3Stats.App

/-!
# Updates that fail

Both updates change the player in memory before they store it, and their
`onFailed` closure only presents an alert.  So after a failure the views show the
new counter, `addNewMatchResult` shows its checkmark all the same, and the next
update that goes through stores the change that was reported as not saved.  A
failed update is without effect exactly when it is an edit that leaves its
counter as it was.
-/

namespace W3Stats

open StepMachine

/-- The event calls `updatePlayer` for the player, and the write fails.  A counter at
    `Int.max` traps before the call. -/
inductive StatsEvent.FailsFor (player : Player) : StatsEvent → Prop
  | saveNewValue (newValue : EditedValue) (race : Race) (matchResult : ResultType) :
      FailsFor player (.saveNewValue newValue race matchResult .fails)
  | addNewMatchResult (matchResult : MatchResult)
      (h : (player.stats.counter matchResult.resultType matchResult.vsRace).val <
        SwiftInt.max.val) : FailsFor player (.addNewMatchResult matchResult .fails)

theorem StatsEvent.FailsFor.isUpdate {player : Player} {e : StatsEvent} (h : e.FailsFor player) :
    e.isUpdate = true := by
  cases h <;> rfl

/-! ### Screens with the same player and the same store -/

namespace StatsViewController

variable {π : Type} [DataProviding π]

/-- Events on the stats screen, one after the other. -/
def handleAll (vc : StatsViewController) (provider : π) (events : List StatsEvent) :
    Except Trap (StatsViewController × π) :=
  run (fun s event => s.1.handle s.2 event) (vc, provider) events

variable [LawfulProvider π]

theorem player_checkmarkCompleted (vc : StatsViewController) :
    vc.checkmarkCompleted.player = vc.player := by
  unfold checkmarkCompleted
  split <;> rfl

/-- What later events can tell apart is only the player held and what is stored. -/
structure SamePlayer (s t : StatsViewController × π) : Prop where
  player : s.1.player = t.1.player
  ready : LawfulProvider.Ready s.2
  ready' : LawfulProvider.Ready t.2
  contents : LawfulProvider.contents s.2 = LawfulProvider.contents t.2

theorem SamePlayer.loadPlayer {s t : StatsViewController × π} (h : SamePlayer s t)
    (name : String) :
    DataProviding.loadPlayer name s.2 = DataProviding.loadPlayer name t.2 := by
  rw [LawfulProvider.loadPlayer_eq _ _ h.ready, LawfulProvider.loadPlayer_eq _ _ h.ready',
    h.contents]

theorem SamePlayer.updateAndShow {s t : StatsViewController × π} (h : SamePlayer s t)
    (player : Player) (write : Write) :
    Agree SamePlayer (updateAndShow player write s.1 s.2) (updateAndShow player write t.1 t.2) := by
  obtain ⟨provider, hready, hcontents, heq⟩ := updateAndShow_eq h.ready player write s.1
  obtain ⟨provider', hready', hcontents', heq'⟩ := updateAndShow_eq h.ready' player write t.1
  rw [heq, heq']
  apply (Agree.refl player.display).bind
  rintro display _ rfl
  refine ⟨rfl, hready, hready', ?_⟩
  rw [hcontents, hcontents', h.contents]

theorem SamePlayer.handle {s t : StatsViewController × π} (h : SamePlayer s t)
    (event : StatsEvent) :
    Agree SamePlayer (s.1.handle s.2 event) (t.1.handle t.2 event) := by
  have hplayer := h.player
  cases event with
  | addNewMatchResult matchResult write =>
    rcases hheld : t.1.player with _ | player
    · rw [hheld] at hplayer
      simp only [StatsViewController.handle, addNewMatchResult, hplayer, hheld]
      exact h
    · rw [hheld] at hplayer
      simp only [StatsViewController.handle]
      rw [addNewMatchResult_of_some hplayer, addNewMatchResult_of_some hheld]
      apply (Agree.refl _).bind
      rintro value _ rfl
      apply (h.updateAndShow _ write).bind
      intro shown shown' hshown
      exact ⟨hshown.player, hshown.ready, hshown.ready', hshown.contents⟩
  | saveNewValue newValue race matchResult write =>
    rcases hheld : t.1.player with _ | player
    · rw [hheld] at hplayer
      simp only [StatsViewController.handle, saveNewValue, hplayer, hheld]
      exact h
    · rw [hheld] at hplayer
      simp only [StatsViewController.handle]
      rw [saveNewValue_of_some hplayer, saveNewValue_of_some hheld]
      exact h.updateAndShow _ write
  | addMatchButtonTapped => exact ⟨hplayer, h.ready, h.ready', h.contents⟩
  | tappedOnBackground => exact ⟨hplayer, h.ready, h.ready', h.contents⟩
  | unblurCompleted => exact ⟨hplayer, h.ready, h.ready', h.contents⟩
  | checkmarkCompleted =>
    refine ⟨?_, h.ready, h.ready', h.contents⟩
    simp only [player_checkmarkCompleted, hplayer]

/-- Whatever is done later ends with the same records stored, or in the same trap. -/
theorem SamePlayer.handleAll {vc vc' : StatsViewController} {provider provider' : π}
    (h : SamePlayer (vc, provider) (vc', provider')) (later : List StatsEvent) :
    Agree (fun s t => ∀ name,
        DataProviding.loadPlayer name s.2 = DataProviding.loadPlayer name t.2)
      (vc.handleAll provider later) (vc'.handleAll provider' later) := by
  have hrun := run_agree (R := SamePlayer) (fun s t event hst => hst.handle event) h later
  exact hrun.mono fun s t hst => hst.loadPlayer

end StatsViewController

namespace App

variable {π : Type} [DataProviding π]

/-- The event calls `updatePlayer`, and the call reports `onFailed`. -/
def FailsToUpdate (app : App π) (event : AppEvent) : Prop :=
  ∃ e player, event = .stats e ∧ app.Takes e ∧ app.stats.player = some player ∧ e.FailsFor player

/-- The step from the first state to the second had no effect: not on the player held
    nor on the views, no checkmark was shown, and any later events on the player
    store what they would have stored without it. -/
structure NoEffect (app app' : App π) : Prop where
  player : app'.stats.player = app.stats.player
  display : app'.stats.display = app.stats.display
  checkmarkIsHidden : app'.stats.checkmarkIsHidden = app.stats.checkmarkIsHidden
  pendingCheckmarks : app'.stats.pendingCheckmarks = app.stats.pendingCheckmarks
  later : ∀ later : List StatsEvent,
    Agree (fun s t => ∀ name,
        DataProviding.loadPlayer name s.2 = DataProviding.loadPlayer name t.2)
      (app'.stats.handleAll app'.provider later) (app.stats.handleAll app.provider later)

/-- If the event fails to update, its step goes on and had no effect. -/
def FailureHasNoEffect (count : String → Nat) (app : App π) (event : AppEvent) : Prop :=
  app.FailsToUpdate event → ∃ app', app.step count event = .ok app' ∧ NoEffect app app'

/-- If the event fails to update, it is an edit to the value the counter has. -/
def FailureSetsCurrentValue (app : App π) (event : AppEvent) : Prop :=
  app.FailsToUpdate event → ∃ newValue race matchResult,
    event = .stats (.saveNewValue newValue race matchResult .fails) ∧
      app.stats.getCurrentValueFor race matchResult = some newValue.value

variable [LawfulProvider π] {app app' : App π} {event : AppEvent}

/-- The provider is ready and the views show the player held. -/
structure Displayed (app : App π) : Prop where
  ready : LawfulProvider.Ready app.provider
  shown : ∀ player, app.stats.player = some player →
    ∃ display, player.display = .ok display ∧ app.stats.display = some display

theorem displayed_launch {provider : π} (h : LawfulProvider.Ready provider) :
    Displayed (launch provider) := by
  refine ⟨h, ?_⟩
  intro player hplayer
  cases hplayer

theorem Displayed.step {count : String → Nat} (h : Displayed app)
    (hstep : app.step count event = .ok app') : Displayed app' := by
  have hdid := did_of_step h.ready hstep
  refine ⟨hdid.ready h.ready, ?_⟩
  cases hdid with
  | quiet idle provider player display =>
    rw [player, display]
    exact h.shown
  | updated uncovered player sets updated =>
    intro held hheld
    rw [updated.held] at hheld
    cases hheld
    exact updated.shown
  | saved top accepted fresh ready' stored' stats =>
    rw [stats]
    exact h.shown
  | deleted top listedAt ready' stored' stats =>
    rw [stats]
    exact h.shown
  | selected player shown provider => exact shown

/-- A failed edit to the value the counter has goes on and has no effect. -/
theorem Displayed.noEffect_of_currentValue {count : String → Nat} (h : Displayed app)
    {newValue : EditedValue} {race : Race} {matchResult : ResultType}
    (htakes : app.Takes (.saveNewValue newValue race matchResult .fails)) {player : Player}
    (hplayer : app.stats.player = some player)
    (hvalue : player.stats.counter matchResult race = newValue.value) :
    ∃ app', app.step count (.stats (.saveNewValue newValue race matchResult .fails)) = .ok app' ∧
      NoEffect app app' := by
  obtain ⟨display, hdisplay, hshown⟩ := h.shown player hplayer
  obtain ⟨provider', hready', hcontents, heq⟩ :=
    StatsViewController.updateAndShow_eq h.ready player .fails app.stats
  have hset : player.setCounter newValue.value matchResult race = player := by
    rw [← hvalue, Player.setCounter, Stats.setCounter_counter]
  let stats : StatsViewController :=
    { app.stats with
      player := some player
      display := some display
      alerts := app.stats.alerts ++ Write.updateAlerts .fails }
  have hhandle : app.stats.handle app.provider (.saveNewValue newValue race matchResult .fails) =
      .ok (stats, provider') := by
    rw [StatsViewController.handle, StatsViewController.saveNewValue_of_some hplayer, hset, heq,
      hdisplay]
    rfl
  refine ⟨{ app with stats, provider := provider' }, ?_, ?_⟩
  · rw [App.step, if_pos htakes, hhandle]
    rfl
  · refine ⟨hplayer.symm, hshown.symm, rfl, rfl, ?_⟩
    intro later
    apply StatsViewController.SamePlayer.handleAll
    exact ⟨hplayer.symm, hready', h.ready, hcontents⟩

/-- A failed update without effect on the player set a counter to its value. -/
theorem currentValue_of_noEffect {count : String → Nat}
    (hready : LawfulProvider.Ready app.provider) (hfails : app.FailsToUpdate event)
    (hstep : app.step count event = .ok app') (h : NoEffect app app') :
    ∃ newValue race matchResult, event = .stats (.saveNewValue newValue race matchResult .fails) ∧
      app.stats.getCurrentValueFor race matchResult = some newValue.value := by
  obtain ⟨e, player, rfl, htakes, hplayer, hfor⟩ := hfails
  have hnone := htakes.presented_eq_none hfor.isUpdate
  have hdid := did_of_step hready hstep
  cases hdid with
  | quiet idle =>
    rcases idle hnone with hno | hno
    · rw [hplayer] at hno
      cases hno
    · rw [hfor.isUpdate] at hno
      cases hno
  | @updated e app' held value result race write uncovered hheld sets updated =>
    rw [hplayer] at hheld
    cases hheld
    -- the player held afterwards is the one before with the counter set
    have hvalue : player.stats.counter result race = value := by
      have hsame : player.setCounter value result race = player := by
        have heq := h.player
        rw [updated.held, hplayer] at heq
        exact Option.some.inj heq
      rw [← Stats.counter_setCounter_self player.stats value result race,
        ← Player.stats_setCounter, hsame]
    cases hfor with
    | saveNewValue newValue _ _ =>
      cases sets
      refine ⟨newValue, race, result, rfl, ?_⟩
      rw [StatsViewController.getCurrentValueFor, hplayer, Option.map_some, hvalue]
    | addNewMatchResult matchResult hmax =>
      cases sets with
      | addNewMatchResult _ _ hnext =>
        rw [hvalue] at hnext
        omega

theorem Displayed.step_noEffect_iff {count : String → Nat} (h : Displayed app)
    (event : AppEvent) :
    FailureHasNoEffect count app event ↔ FailureSetsCurrentValue app event := by
  constructor
  · intro hnone hfails
    obtain ⟨app', hstep, heffect⟩ := hnone hfails
    exact currentValue_of_noEffect h.ready hfails hstep heffect
  · intro hcurrent hfails
    obtain ⟨newValue, race, matchResult, rfl, hvalue⟩ := hcurrent hfails
    obtain ⟨e, player, heq, htakes, hplayer, -⟩ := hfails
    cases heq
    rw [StatsViewController.getCurrentValueFor, hplayer, Option.map_some, Option.some.injEq]
      at hvalue
    exact h.noEffect_of_currentValue htakes hplayer hvalue

/-! ### Whole runs -/

/-- **When failed updates have no effect.**  Along a run from a launch over any store,
    every failed update goes on without any effect exactly when every failed update
    is an edit to the value its counter has. -/
theorem failureHasNoEffect_iff (count : String → Nat) (realm : Realm) (hready : realm.Ready)
    (events : List AppEvent) :
    AllSteps (step count) (FailureHasNoEffect count) (launch realm) events ↔
      AllSteps (step count) FailureSetsCurrentValue (launch realm) events :=
  allSteps_congr (I := Displayed) (fun _ _ _ h _ hstep => h.step hstep)
    (fun _ event h => h.step_noEffect_iff event) (displayed_launch hready)

/-- A player is added and selected. -/
def addsAndSelects : List AppEvent :=
  [.runBlock 0 true, .players (.type "abc"), .players (.tapOnSave .succeeds), .didSelectRow 0,
    .runBlock 0 true]

/-- An edit to the value the counter has, which fails. -/
theorem failureHasNoEffect_iff_addsAndSelects :
    AllSteps (step String.length) (FailureHasNoEffect String.length)
        (launch (Realm.opened Group.empty))
        (addsAndSelects ++ [.stats (.saveNewValue ⟨0, by decide⟩ .orc .win .fails)]) ↔
      AllSteps (step String.length) FailureSetsCurrentValue (launch (Realm.opened Group.empty))
        (addsAndSelects ++ [.stats (.saveNewValue ⟨0, by decide⟩ .orc .win .fails)]) :=
  failureHasNoEffect_iff String.length _ Realm.ready_empty _

/-- A win that fails after a player was selected, and then a loss that is stored: what
    covers the screen and what it shows before the win, whether the checkmark is
    hidden after it, and the wins stored in the end. -/
def failedWinThenLoss :
    Except Trap (Option Nat × Option Player × Bool × Bool × Option SwiftInt) := do
  let app ← run (step String.length) (launch (Realm.opened Group.empty)) addsAndSelects
  let app' ← app.step String.length (.stats (.addNewMatchResult ⟨.orc, .win⟩ .fails))
  let after ← app'.stats.handleAll app'.provider [.addNewMatchResult ⟨.elf, .lose⟩ .succeeds]
  let stored := RealmDataProvider.loadPlayer "abc" after.2
  return (app.presented, app.stats.player, app.stats.checkmarkIsHidden,
    app'.stats.checkmarkIsHidden, stored.map fun player => player.stats.vsOrc.wins)

/-- The failed win shows its checkmark, and the loss stores it. -/
theorem failureHasNoEffect_counterexample :
    failedWinThenLoss = .ok (none, some ⟨"abc", .human, .empty⟩, true, false, some 1) ∧
    ¬ ∀ (realm : Realm) (events : List AppEvent), realm.Ready →
        AllSteps (step String.length) (FailureHasNoEffect String.length) (launch realm) events := by
  have hcomputed : failedWinThenLoss =
      .ok (none, some ⟨"abc", .human, .empty⟩, true, false, some 1) := by
    decide +kernel
  refine ⟨hcomputed, ?_⟩
  intro h
  obtain ⟨app, hrun, hrest⟩ := bind_eq_ok.mp hcomputed
  obtain ⟨app', hstep, hrest⟩ := bind_eq_ok.mp hrest
  obtain ⟨after, -, hrest⟩ := bind_eq_ok.mp hrest
  have hresult := Except.ok.inj hrest
  simp only [Prod.mk.injEq] at hresult
  obtain ⟨hnone, hplayer, hhidden, hshown, -⟩ := hresult
  have hfails : app.FailsToUpdate (.stats (.addNewMatchResult ⟨.orc, .win⟩ .fails)) :=
    ⟨_, _, rfl, Or.inl hnone, hplayer, .addNewMatchResult ⟨.orc, .win⟩ (by decide)⟩
  have hall := h _ (addsAndSelects ++ [.stats (.addNewMatchResult ⟨.orc, .win⟩ .fails)])
    Realm.ready_empty
  obtain ⟨app'', hstep', heffect⟩ := hall.at hrun hfails
  rw [hstep] at hstep'
  cases hstep'
  have hsame := heffect.checkmarkIsHidden
  rw [hhidden, hshown] at hsame
  cases hsame

end App

end W3Stats

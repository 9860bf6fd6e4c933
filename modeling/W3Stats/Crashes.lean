import W3Stats.CounterHistory
import W3Stats.EditAlert
import W3Stats.PlayersList

/-!
# What ends the process, and what it leaves stored

Four things can end the app: a total that does not fit an `Int`, shown after an
update or after a selection, a name that is saved twice, and a row that is gone
when its block runs.  An update is stored before it is shown, so the store a
crash leaves is not always the one the handler found.
-/

namespace W3Stats

open StepMachine

theorem bind_ok_eq_error {α β : Type} {x : Except Trap α} {f : α → β} {trap : Trap} :
    (x >>= fun a => .ok (f a)) = .error trap ↔ x = .error trap := by
  rcases x with t | a
  · simp [bind, Except.bind]
  · simp [bind, Except.bind]

theorem Checked.error_iff {α : Type} {n : Int} {x : Except Trap α}
    (hx : Checked n (fun _ => n < 2 ^ 63) x) {trap : Trap} :
    x = .error trap ↔ trap = .arithmeticOverflow ∧ ¬ n ≤ SwiftInt.max.val := by
  rw [SwiftInt.val_max]
  rcases hx with ⟨a, rfl, ha⟩ | ⟨rfl, hover⟩
  · constructor
    · intro h
      cases h
    · rintro ⟨-, hpast⟩
      omega
  · constructor
    · intro h
      cases h
      exact ⟨rfl, by omega⟩
    · rintro ⟨rfl, -⟩
      rfl

/-! ### The store a handler leaves -/

/-- A call that traps does so inside its write transaction, which is then never
    committed. -/
def storeAfterCall {π : Type} (call : π → Except Trap (π × Reply)) (provider : π) : π :=
  match call provider with
  | .ok (after, _) => after
  | .error _ => provider

theorem storeAfterCall_of_ok {π : Type} {call : π → Except Trap (π × Reply)}
    {provider after : π} {reply : Reply} (h : call provider = .ok (after, reply)) :
    storeAfterCall call provider = after := by
  simp only [storeAfterCall, h]

theorem storeAfterCall_of_error {π : Type} {call : π → Except Trap (π × Reply)}
    {provider : π} {trap : Trap} (h : call provider = .error trap) :
    storeAfterCall call provider = provider := by
  simp only [storeAfterCall, h]

section StoreAfter

variable {π : Type} [DataProviding π]

def StatsViewController.storeAfter (vc : StatsViewController) (provider : π) : StatsEvent → π
  | .addNewMatchResult matchResult write =>
      match vc.player with
      | none => provider
      | some player =>
          match player.stats.addOne matchResult.resultType matchResult.vsRace with
          | .error _ => provider
          | .ok stats =>
              storeAfterCall (DataProviding.updatePlayer { player with stats } write) provider
  | .saveNewValue newValue race matchResult write =>
      match vc.player with
      | none => provider
      | some player =>
          storeAfterCall (DataProviding.updatePlayer
            (player.setCounter newValue.value matchResult race) write) provider
  | _ => provider

def PlayersViewController.storeAfter (vc : PlayersViewController) (provider : π) :
    PlayersEvent → π
  | .tapOnSave write =>
      if vc.form.IsOpen ∧ vc.addPlayerView.saveButtonIsEnabled then
        storeAfterCall (DataProviding.savePlayer ⟨vc.addPlayerView.playerResult.name,
          vc.addPlayerView.playerResult.race, .empty⟩ write) provider
      else provider
  | .commitDelete row write =>
      match vc.players[row]? with
      | none => provider
      | some player => storeAfterCall (DataProviding.deletePlayer player.name write) provider
  | _ => provider

/-- What is stored when the handlers of an event are over, also when one of them
    trapped. -/
def App.storeAfter (app : App π) : AppEvent → π
  | .stats e => if app.Takes e then app.stats.storeAfter app.provider e else app.provider
  | .players e =>
      match app.top with
      | none => app.provider
      | some (_, vc) => vc.storeAfter app.provider e
  | _ => app.provider

theorem StatsViewController.storeAfter_updateAndShow {vc : StatsViewController} {player : Player}
    {write : Write} {provider : π} {after : StatsViewController × π}
    (h : vc.updateAndShow player write provider = .ok after) :
    storeAfterCall (DataProviding.updatePlayer player write) provider = after.2 := by
  obtain ⟨⟨provider', reply⟩, hcall, h⟩ := bind_eq_ok.mp h
  obtain ⟨vc', -, h⟩ := bind_eq_ok.mp h
  cases h
  exact storeAfterCall_of_ok hcall

theorem StatsViewController.storeAfter_of_ok {vc : StatsViewController} {provider : π}
    {event : StatsEvent} {after : StatsViewController × π}
    (h : vc.handle provider event = .ok after) : vc.storeAfter provider event = after.2 := by
  cases event with
  | addNewMatchResult matchResult write =>
    simp only [handle, addNewMatchResult] at h
    simp only [storeAfter]
    split
    · rename_i hplayer
      simp only [hplayer] at h
      cases h
      rfl
    · rename_i player hplayer
      simp only [hplayer] at h
      obtain ⟨stats, hstats, h⟩ := bind_eq_ok.mp h
      obtain ⟨shown, hshown, h⟩ := bind_eq_ok.mp h
      cases h
      simp only [hstats]
      exact storeAfter_updateAndShow hshown
  | saveNewValue newValue race matchResult write =>
    simp only [handle, saveNewValue] at h
    simp only [storeAfter]
    split
    · rename_i hplayer
      simp only [hplayer] at h
      cases h
      rfl
    · rename_i player hplayer
      simp only [hplayer] at h
      exact storeAfter_updateAndShow h
  | _ =>
    cases h
    rfl

theorem PlayersViewController.storeAfter_of_ok {count : String → Nat}
    {vc : PlayersViewController} {provider : π} {event : PlayersEvent}
    {after : PlayersViewController × π} (h : vc.handle count provider event = .ok after) :
    vc.storeAfter provider event = after.2 := by
  cases event with
  | tapOnSave write =>
    simp only [handle] at h
    simp only [storeAfter]
    split
    · rename_i haccepted
      rw [if_pos haccepted] at h
      obtain ⟨added, hadded, h⟩ := bind_eq_ok.mp h
      obtain ⟨⟨provider', reply⟩, hcall, hadded⟩ := bind_eq_ok.mp hadded
      cases hadded
      cases h
      exact storeAfterCall_of_ok hcall
    · rename_i haccepted
      rw [if_neg haccepted] at h
      cases h
      rfl
  | commitDelete row write =>
    simp only [handle, commitDelete] at h
    simp only [storeAfter]
    split
    · rename_i hrow
      rw [if_neg (Nat.not_lt.mpr (List.getElem?_eq_none_iff.mp hrow))] at h
      cases h
      rfl
    · rename_i player hrow
      obtain ⟨hlt, -⟩ := List.getElem?_eq_some_iff.mp hrow
      simp only [if_pos hlt, hrow] at h
      obtain ⟨⟨provider', reply⟩, hcall, h⟩ := bind_eq_ok.mp h
      cases h
      exact storeAfterCall_of_ok hcall
  | type text =>
    simp only [handle] at h
    split at h
    all_goals
      cases h
      rfl
  | didSelectRace row =>
    simp only [handle] at h
    split at h
    all_goals
      cases h
      rfl
  | _ =>
    cases h
    rfl

/-- A step that goes on leaves the store of the state it goes on to. -/
theorem App.storeAfter_of_ok {count : String → Nat} {app app' : App π} {event : AppEvent}
    (h : app.step count event = .ok app') : app.storeAfter event = app'.provider := by
  cases stepped_of_step h with
  | @ignored event ignores =>
    cases event with
    | stats e => exact if_neg ignores
    | players e =>
      simp only [storeAfter]
      rw [show app.top = none from ignores]
    | _ => rfl
  | stats takes handled =>
    simp only [storeAfter, if_pos takes]
    exact StatsViewController.storeAfter_of_ok handled
  | players top handled =>
    simp only [storeAfter, top]
    exact PlayersViewController.storeAfter_of_ok handled
  | _ => rfl

end StoreAfter

/-! ### Which steps trap -/

namespace App

variable {π : Type} [DataProviding π]

/-- The ways a handler ends the process. -/
inductive Crashes (app : App π) : AppEvent → Trap → Prop
  /-- The total of the record that an update shows is not an `Int`. -/
  | updated {e} (takes : app.Takes e)
      (past : ¬ StatsOperation.TotalFits (app.stats, app.provider) (.handle e)) :
      Crashes app (.stats e) .arithmeticOverflow
  /-- The name of the form is stored already. -/
  | saved {write screen vc} (top : app.top = some (screen, vc))
      (accepted : vc.form.IsOpen ∧ vc.addPlayerView.saveButtonIsEnabled = true)
      (stored : DataProviding.loadPlayer vc.addPlayerView.playerResult.name app.provider ≠ none) :
      Crashes app (.players (.tapOnSave write))
        (.exception (.existingPrimaryKey "PlayerObject" vc.addPlayerView.playerResult.name))
  /-- The row tapped is no longer there. -/
  | gone {position obeyed screen row vc}
      (block : app.queue[position]? = some (.selectRow screen row))
      (found : app.screens[screen]? = some vc) (gone : vc.players[row]? = none) :
      Crashes app (.runBlock position obeyed) .indexOutOfRange
  /-- The total of the record that a selection shows is not an `Int`. -/
  | selected {position obeyed screen row vc listed}
      (block : app.queue[position]? = some (.selectRow screen row))
      (found : app.screens[screen]? = some vc) (listedAt : vc.players[row]? = some listed)
      (past : ¬ StatsOperation.TotalFits (app.stats, app.provider)
        (.updateStatsForPlayer listed.name)) :
      Crashes app (.runBlock position obeyed) .arithmeticOverflow

/-- The action of an event, if the store has it when the handlers are over: nothing is
    stored when the counter is `Int.max` already, or when the name is. -/
def storedAction? (app : App π) : AppEvent → Option PlayerAction
  | .stats (.addNewMatchResult matchResult write) =>
      if ∃ held ∈ app.stats.player,
          held.stats.counter matchResult.resultType matchResult.vsRace = .max then none
      else app.action? (.stats (.addNewMatchResult matchResult write))
  | .players (.tapOnSave write) =>
      if ∃ top ∈ app.top,
          DataProviding.loadPlayer top.2.addPlayerView.playerResult.name app.provider ≠ none then
        none
      else app.action? (.players (.tapOnSave write))
  | event => app.action? event

variable [LawfulProvider π] {app app' : App π} {event : AppEvent}

/-- The provider is ready, and no counter that is stored or held is negative. -/
abbrev Counts (app : App π) : Prop := StatsOperation.Counts (app.stats, app.provider)

theorem counts_launch {provider : π} (hready : LawfulProvider.Ready provider)
    (hnonneg : (LawfulProvider.contents provider).Nonneg) : (launch provider).Counts := by
  refine ⟨hready, hnonneg, ?_⟩
  intro player hplayer
  cases hplayer

theorem stats_eq_error_iff (h : app.Counts) (count : String → Nat) (e : StatsEvent)
    (trap : Trap) : app.step count (.stats e) = .error trap ↔ app.Crashes (.stats e) trap := by
  have hchecked := StatsOperation.step_checked h (.handle e)
  simp only [step]
  constructor
  · intro herror
    split at herror
    · rename_i htakes
      have htrap : app.stats.handle app.provider e = .error trap := bind_ok_eq_error.mp herror
      obtain ⟨rfl, hpast⟩ := hchecked.error_iff.mp htrap
      exact .updated htakes hpast
    · cases herror
  · intro hcrash
    cases hcrash with
    | updated takes past =>
      rw [if_pos takes]
      apply bind_ok_eq_error.mpr
      exact hchecked.error_iff.mpr ⟨rfl, past⟩

theorem players_eq_error_iff (h : app.Counts) (count : String → Nat) (e : PlayersEvent)
    (trap : Trap) : app.step count (.players e) = .error trap ↔ app.Crashes (.players e) trap := by
  simp only [step]
  rcases htop : app.top with _ | ⟨screen, vc⟩
  · constructor
    · intro herror
      cases herror
    · intro hcrash
      cases hcrash with
      | saved top =>
        rw [htop] at top
        cases top
  · have hstored : ∀ name, DataProviding.loadPlayer name app.provider ≠ none ↔
        name ∈ LawfulProvider.contents app.provider :=
      ListOperation.loadPlayer_ne_none_iff h.ready
    constructor
    · intro herror
      have htrap : vc.handle count app.provider e = .error trap := bind_ok_eq_error.mp herror
      cases e with
      | tapOnSave write =>
        simp only [PlayersViewController.handle] at htrap
        split at htrap
        · rename_i haccepted
          by_cases hname : vc.addPlayerView.playerResult.name ∈
              LawfulProvider.contents app.provider
          · rw [PlayersViewController.tapOnSave_existing h.ready hname] at htrap
            cases htrap
            exact .saved htop haccepted ((hstored _).mpr hname)
          · obtain ⟨vc', provider', hsave, -⟩ :=
              PlayersViewController.tapOnSave_fresh h.ready hname write
            rw [hsave] at htrap
            cases htrap
        · cases htrap
      | commitDelete row write =>
        simp only [PlayersViewController.handle] at htrap
        split at htrap
        · rename_i hrow
          obtain ⟨provider', reply, hdelete, -⟩ := PlayersViewController.commitDelete_eq h.ready
            (List.getElem?_eq_getElem hrow) write
          rw [hdelete] at htrap
          cases htrap
        · cases htrap
      | type text =>
        simp only [PlayersViewController.handle] at htrap
        split at htrap
        all_goals cases htrap
      | didSelectRace row =>
        simp only [PlayersViewController.handle] at htrap
        split at htrap
        all_goals cases htrap
      | _ => cases htrap
    · intro hcrash
      cases hcrash with
      | @saved write screen' vc' top accepted stored =>
        rw [htop] at top
        cases top
        have htrap := PlayersViewController.tapOnSave_existing h.ready ((hstored _).mp stored) write
        apply bind_ok_eq_error.mpr
        simp only [PlayersViewController.handle, if_pos accepted]
        exact htrap

theorem runBlock_eq_error_iff (h : app.Counts) (count : String → Nat) (position : Nat)
    (obeyed : Bool) (trap : Trap) : app.step count (.runBlock position obeyed) = .error trap ↔
      app.Crashes (.runBlock position obeyed) trap := by
  have hchecked := fun name => StatsOperation.step_checked h (.updateStatsForPlayer name)
  simp only [step]
  constructor
  · intro herror
    split at herror
    · cases herror
    · rename_i block hblock
      cases block with
      | presentPlayersViewController =>
        simp only [runBlock] at herror
        split at herror
        all_goals cases herror
      | selectRow screen row =>
        simp only [runBlock] at herror
        split at herror
        · cases herror
        · rename_i vc hscreen
          split at herror
          · rename_i hrow
            cases herror
            exact .gone hblock hscreen hrow
          · rename_i listed hrow
            have htrap := bind_ok_eq_error.mp herror
            have hboth : StatsOperation.step (app.stats, app.provider)
                (.updateStatsForPlayer listed.name) = .error trap := bind_ok_eq_error.mpr htrap
            obtain ⟨rfl, hpast⟩ := (hchecked listed.name).error_iff.mp hboth
            exact .selected hblock hscreen hrow hpast
  · intro hcrash
    cases hcrash with
    | gone block found gone =>
      simp only [block, runBlock, found, gone]
    | @selected position obeyed screen row vc listed block found listedAt past =>
      simp only [block, runBlock, found, listedAt]
      have hboth := (hchecked listed.name).error_iff.mpr ⟨rfl, past⟩
      have htrap : app.stats.updateStatsForPlayer listed.name app.provider =
          .error .arithmeticOverflow := bind_ok_eq_error.mp hboth
      exact bind_ok_eq_error.mpr htrap

/-- A step traps in these ways and in no other. -/
theorem step_eq_error_iff (h : app.Counts) (count : String → Nat) (event : AppEvent)
    (trap : Trap) : app.step count event = .error trap ↔ app.Crashes event trap := by
  cases event with
  | stats e => exact stats_eq_error_iff h count e trap
  | players e => exact players_eq_error_iff h count e trap
  | runBlock position obeyed => exact runBlock_eq_error_iff h count position obeyed trap
  | changePlayerTapped =>
    constructor
    · intro herror
      simp only [step] at herror
      split at herror
      all_goals cases herror
    · intro hcrash
      cases hcrash
  | didSelectRow row =>
    constructor
    · intro herror
      simp only [step] at herror
      split at herror
      · cases herror
      · split at herror
        all_goals cases herror
    · intro hcrash
      cases hcrash

/-! ### What a crash leaves stored -/

/-- Storing the player held after a counter was set does what the action says. -/
theorem score_insert_of_sets {map : PlayerMap} {held : Player}
    (hstored : PlayerMap.loadPlayer held.name map = some held) {e : StatsEvent} {value : SwiftInt}
    {result : ResultType} {race : Race} {write : Write}
    (hsets : e.Sets held value result race write) (name : String) :
    PlayerMap.score (map.insert held.name (held.setCounter value result race).record) name =
      scoreAfter name (map.score name) (e.action? held.name).toList := by
  by_cases hname : name = held.name
  · subst hname
    have hscore : map.score held.name = some held.score := by
      rw [PlayerMap.score, hstored]
      rfl
    rw [hscore, hsets.replay]
    exact PlayerMap.score_insert_self _ (held.setCounter value result race)
  · rw [StatsEvent.scoreAfter_action?_of_ne hname]
    exact PlayerMap.score_insert_of_ne _ (held.setCounter value result race) hname

theorem contents_storeAfterCall (hready : LawfulProvider.Ready app.provider) (player : Player)
    (write : Write) :
    LawfulProvider.Ready (storeAfterCall (DataProviding.updatePlayer player write) app.provider) ∧
      LawfulProvider.contents
          (storeAfterCall (DataProviding.updatePlayer player write) app.provider) =
        write.choose (LawfulProvider.contents app.provider)
          ((LawfulProvider.contents app.provider).insert player.name player.record) := by
  obtain ⟨provider', hcall, hready', hcontents⟩ :=
    LawfulProvider.updatePlayer_eq hready player write
  rw [storeAfterCall_of_ok hcall]
  exact ⟨hready', hcontents⟩

theorem add_one_eq_ok {a : SwiftInt} (h : a ≠ .max) :
    ∃ b : SwiftInt, a.add 1 = .ok b ∧ b.val = a.val + 1 := by
  have hlower := a.lower
  have hupper := a.upper
  have hne : a.val ≠ 2 ^ 63 - 1 := fun hval => h (SwiftInt.ext hval)
  refine ⟨⟨a.val + 1, by omega, by omega⟩, ?_, rfl⟩
  exact SwiftInt.add_eq_ok.mpr rfl

theorem add_one_max : ∃ trap, SwiftInt.max.add 1 = .error trap := ⟨_, rfl⟩

/-- An update of the player held stops at the `+= 1`, or it stores the player with one
    counter set, whether or not it can be shown. -/
theorem stores_of_update (hready : LawfulProvider.Ready app.provider) {e : StatsEvent}
    (htakes : app.Takes e) {held : Player} (hheld : app.stats.player = some held)
    (hupdate : e.isUpdate = true) :
    (app.storeAfter (.stats e) = app.provider ∧ app.storedAction? (.stats e) = none) ∨
      ∃ value result race write, e.Sets held value result race write ∧
        app.storedAction? (.stats e) = e.action? held.name ∧
        LawfulProvider.Ready (app.storeAfter (.stats e)) ∧
        LawfulProvider.contents (app.storeAfter (.stats e)) =
          write.choose (LawfulProvider.contents app.provider)
            ((LawfulProvider.contents app.provider).insert held.name
              (held.setCounter value result race).record) := by
  have haction : app.action? (.stats e) = e.action? held.name := by
    rw [action?, if_pos htakes, hheld]
    rfl
  cases e with
  | addNewMatchResult matchResult write =>
    simp only [storeAfter, if_pos htakes, StatsViewController.storeAfter, hheld, storedAction?,
      Stats.addOne_eq, haction, Option.mem_some_iff, exists_eq_left']
    by_cases hmax : held.stats.counter matchResult.resultType matchResult.vsRace = .max
    · left
      obtain ⟨trap, htrap⟩ := add_one_max
      simp only [hmax, htrap, if_true]
      exact ⟨rfl, trivial⟩
    · right
      obtain ⟨value, hadd, hvalue⟩ := add_one_eq_ok hmax
      simp only [hadd, if_neg hmax]
      obtain ⟨hready', hcontents⟩ := contents_storeAfterCall hready
        (held.setCounter value matchResult.resultType matchResult.vsRace) write
      exact ⟨value, _, _, write, .addNewMatchResult matchResult write hvalue, trivial,
        hready', hcontents⟩
  | saveNewValue newValue race matchResult write =>
    right
    simp only [storeAfter, if_pos htakes, StatsViewController.storeAfter, hheld, storedAction?,
      haction]
    obtain ⟨hready', hcontents⟩ := contents_storeAfterCall hready
      (held.setCounter newValue.value matchResult race) write
    exact ⟨newValue.value, _, _, write, .saveNewValue newValue race matchResult write, trivial,
      hready', hcontents⟩
  | _ => cases hupdate

omit [LawfulProvider π] in
/-- An event that can trap while the stats screen takes it is an update of a player. -/
theorem update_of_past {e : StatsEvent}
    (hpast : ¬ StatsOperation.TotalFits (app.stats, app.provider) (.handle e)) :
    e.isUpdate = true ∧ ∃ held, app.stats.player = some held := by
  rcases hplayer : app.stats.player with _ | held
  · exfalso
    apply hpast
    cases e <;> simp [StatsOperation.TotalFits, StatsOperation.shownTotal, hplayer]
  · refine ⟨?_, held, rfl⟩
    cases e with
    | addNewMatchResult matchResult write => rfl
    | saveNewValue newValue race matchResult write => rfl
    | _ =>
      exfalso
      apply hpast
      simp [StatsOperation.TotalFits, StatsOperation.shownTotal]

/-- A step that goes on has stored its action. -/
theorem storedAction?_of_ok (h : app.Counts) {count : String → Nat}
    (hstep : app.step count event = .ok app') : app.storedAction? event = app.action? event := by
  have hsafe : ∀ trap, ¬ app.Crashes event trap := by
    intro trap hcrash
    rw [(step_eq_error_iff h count event trap).mpr hcrash] at hstep
    cases hstep
  cases event with
  | stats e =>
    cases e with
    | addNewMatchResult matchResult write =>
      simp only [storedAction?]
      split
      · rename_i hmax
        obtain ⟨held, hheld, hcounter⟩ := hmax
        by_cases htakes : app.Takes (.addNewMatchResult matchResult write)
        · exfalso
          apply hsafe _ (.updated htakes ?_)
          have hle := Stats.counter_le_total (h.held held hheld) matchResult.resultType
            matchResult.vsRace
          rw [hcounter, SwiftInt.val_max] at hle
          have hplayer : app.stats.player = some held := hheld
          simp only [StatsOperation.TotalFits, StatsOperation.shownTotal, hplayer,
            SwiftInt.val_max]
          omega
        · rw [action?, if_neg htakes]
      · rfl
    | _ => rfl
  | players e =>
    cases e with
    | tapOnSave write =>
      simp only [storedAction?]
      split
      · rename_i hstored
        obtain ⟨⟨screen, vc⟩, htop, hname⟩ := hstored
        have hvc : app.top = some (screen, vc) := htop
        by_cases haccepted : vc.form.IsOpen ∧ vc.addPlayerView.saveButtonIsEnabled = true
        · exact absurd (Crashes.saved hvc haccepted hname) (hsafe _)
        · simp only [action?, hvc, Option.bind_some]
          exact (if_neg haccepted).symm
      · rfl
    | _ => rfl
  | _ => rfl

/-- A name that is saved twice leaves the store as it is. -/
theorem storeAfter_of_saved (h : app.Counts) {screen : Nat} {vc : PlayersViewController}
    (htop : app.top = some (screen, vc))
    (haccepted : vc.form.IsOpen ∧ vc.addPlayerView.saveButtonIsEnabled = true)
    (hstored : DataProviding.loadPlayer vc.addPlayerView.playerResult.name app.provider ≠ none)
    (write : Write) : app.storeAfter (.players (.tapOnSave write)) = app.provider := by
  have hmem := (ListOperation.loadPlayer_ne_none_iff h.ready _).mp hstored
  simp only [storeAfter, htop, PlayersViewController.storeAfter, if_pos haccepted]
  apply storeAfterCall_of_error
  exact LawfulProvider.savePlayer_existing h.ready
    ⟨vc.addPlayerView.playerResult.name, vc.addPlayerView.playerResult.race, .empty⟩ hmem write

/-- Whether a step goes on or traps, the scores in the store are changed by what it has
    stored. -/
theorem score_storeAfter (h : app.Counts)
    (hsync : app.presented = none → app.stats.InSync app.provider)
    (hwrite : event.write? ≠ some .fails) (count : String → Nat) (name : String) :
    (LawfulProvider.contents (app.storeAfter event)).score name =
      scoreAfter name ((LawfulProvider.contents app.provider).score name)
        (app.storedAction? event).toList := by
  rcases hstep : app.step count event with trap | app'
  · cases (step_eq_error_iff h count event trap).mp hstep with
    | @updated e takes past =>
      obtain ⟨hupdate, held, hheld⟩ := update_of_past past
      rcases stores_of_update h.ready takes hheld hupdate with
        ⟨hstore, haction⟩ | ⟨value, result, race, write, hsets, haction, -, hcontents⟩
      · rw [hstore, haction]
        rfl
      · have hsucceeds : write = .succeeds :=
          Write.eq_succeeds fun hfails => hwrite (hfails ▸ hsets.write?_eq)
        have hstored := (hsync (takes.presented_eq_none hupdate)).stored held hheld
        rw [LawfulProvider.loadPlayer_eq _ _ h.ready] at hstored
        rw [haction, hcontents, hsucceeds]
        exact score_insert_of_sets hstored hsets name
    | @saved write screen vc top accepted stored =>
      have hnone : app.storedAction? (.players (.tapOnSave write)) = none := by
        simp only [storedAction?]
        exact if_pos ⟨(screen, vc), top, stored⟩
      rw [storeAfter_of_saved h top accepted stored write, hnone]
      rfl
    | gone block found gone => rfl
    | selected block found listedAt past => rfl
  · rw [storeAfter_of_ok hstep, storedAction?_of_ok h hstep]
    exact (did_of_step h.ready hstep).score_eq h.ready hsync hwrite name

/-- The store a step leaves can be opened again, and its counters are not negative. -/
theorem counts_storeAfter (h : app.Counts) (count : String → Nat) (event : AppEvent) :
    LawfulProvider.Ready (app.storeAfter event) ∧
      (LawfulProvider.contents (app.storeAfter event)).Nonneg := by
  rcases hstep : app.step count event with trap | app'
  · cases (step_eq_error_iff h count event trap).mp hstep with
    | @updated e takes past =>
      obtain ⟨hupdate, held, hheld⟩ := update_of_past past
      rcases stores_of_update h.ready takes hheld hupdate with
        ⟨hstore, -⟩ | ⟨value, result, race, write, hsets, -, hready', hcontents⟩
      · rw [hstore]
        exact ⟨h.ready, h.stored⟩
      · refine ⟨hready', ?_⟩
        have hnonneg := h.held held hheld
        have hvalue : 0 ≤ value.val := by
          cases hsets with
          | saveNewValue newValue race matchResult write => exact newValue.nonneg
          | addNewMatchResult matchResult write hnext =>
            have hcounter := hnonneg matchResult.resultType matchResult.vsRace
            omega
        rw [hcontents]
        exact Write.choose_of h.stored (h.stored.insert (held.setCounter value result race)
          (hnonneg.setCounter hvalue result race)) write
    | @saved write screen vc top accepted stored =>
      rw [storeAfter_of_saved h top accepted stored write]
      exact ⟨h.ready, h.stored⟩
    | gone block found gone => exact ⟨h.ready, h.stored⟩
    | selected block found listedAt past => exact ⟨h.ready, h.stored⟩
  · have hcounts := EditingApp.counts_did h (did_of_step h.ready hstep)
    rw [storeAfter_of_ok hstep]
    exact ⟨hcounts.ready, hcounts.stored⟩

end App

end W3Stats

import W3Stats.PlayersViewController
import W3Stats.RealmRefinesMap
import W3Stats.StatsViewController

/-!
# The two screens together

The stats screen is always there; players screens are presented over it one at a
time.  Presenting one and selecting a row in it are blocks on the main queue:
they run later, and a block of selection reads its row only then.  The blocks may
run in any order here, which covers the order the queue has.
-/

namespace W3Stats

open StepMachine

/-- A block waiting on the main queue. -/
inductive Block where
  | presentPlayersViewController
  /-- Select a row of one of the players screens presented so far. -/
  | selectRow (screen row : Nat)
deriving DecidableEq, Repr

structure App (π : Type) where
  provider : π
  stats : StatsViewController
  /-- The players screens presented so far. -/
  screens : List PlayersViewController
  /-- The one that covers the stats screen. -/
  presented : Option Nat
  queue : List Block
deriving DecidableEq

inductive AppEvent where
  /-- Something on the stats screen. -/
  | stats (event : StatsEvent)
  /-- The button of the stats screen that changes the player. -/
  | changePlayerTapped
  /-- Something on the players screen that is presented.  What is still to complete on one
      that is not presented any more shows nowhere, and is left out. -/
  | players (event : PlayersEvent)
  /-- A tap on a row of it. -/
  | didSelectRow (row : Nat)
  /-- A block of the queue runs; UIKit may refuse to present or dismiss a screen, as it
      does while an alert is shown. -/
  | runBlock (position : Nat) (obeyed : Bool)
deriving DecidableEq, Repr

namespace App

variable {π : Type} [DataProviding π]

/-- After launch: `viewDidLoad` of the stats screen has no player and asks for the
    players screen. -/
def launch (provider : π) : App π :=
  ⟨provider, .initial, [], none, [.presentPlayersViewController]⟩

/-- The players screen that is presented. -/
def top (app : App π) : Option (Nat × PlayersViewController) :=
  app.presented.bind fun i => (app.screens[i]?).map fun vc => (i, vc)

omit [DataProviding π] in
theorem top_eq_some {app : App π} {i : Nat} {vc : PlayersViewController} :
    app.top = some (i, vc) ↔ app.presented = some i ∧ app.screens[i]? = some vc := by
  rw [top, Option.bind_eq_some_iff]
  constructor
  · rintro ⟨j, hj, h⟩
    obtain ⟨vc', hget, heq⟩ := Option.map_eq_some_iff.mp h
    cases heq
    exact ⟨hj, hget⟩
  · rintro ⟨hpresented, hget⟩
    refine ⟨i, hpresented, ?_⟩
    rw [hget]
    rfl

omit [DataProviding π] in
theorem presented_of_top {app : App π} {i : Nat} {vc : PlayersViewController}
    (h : app.top = some (i, vc)) : app.presented = some i := (top_eq_some.mp h).1

omit [DataProviding π] in
theorem screens_of_top {app : App π} {i : Nat} {vc : PlayersViewController}
    (h : app.top = some (i, vc)) : app.screens[i]? = some vc := (top_eq_some.mp h).2

omit [DataProviding π] in
theorem mem_screens_of_top {app : App π} {i : Nat} {vc : PlayersViewController}
    (h : app.top = some (i, vc)) : vc ∈ app.screens :=
  List.mem_of_getElem? (screens_of_top h)

def enqueue (block : Block) (app : App π) : App π := { app with queue := app.queue ++ [block] }

/-- The events of the stats screen reach it while it is not covered. -/
def Takes (app : App π) (event : StatsEvent) : Prop :=
  app.presented = none ∨ event.isCompletion = true

instance (app : App π) (event : StatsEvent) : Decidable (app.Takes event) := by
  unfold Takes
  infer_instance

omit [DataProviding π] in
theorem Takes.presented_eq_none {app : App π} {event : StatsEvent} (h : app.Takes event)
    (hupdate : event.isUpdate = true) : app.presented = none := by
  rcases h with hnone | hcompletion
  · exact hnone
  · rw [StatsEvent.isUpdate_of_isCompletion hcompletion] at hupdate
    cases hupdate

def runBlock (obeyed : Bool) (app : App π) : Block → Except Trap (App π)
  | .presentPlayersViewController =>
      if app.presented = none ∧ obeyed then
        .ok { app with
          screens := app.screens ++ [.viewDidLoad app.provider]
          presented := some app.screens.length }
      else .ok app
  | .selectRow screen row =>
      match app.screens[screen]? with
      | none => .ok app
      | some vc =>
          match vc.players[row]? with
          | none => .error .indexOutOfRange
          | some player => do
              let stats ← app.stats.updateStatsForPlayer player.name app.provider
              return { app with
                stats
                presented := if app.presented = some screen ∧ obeyed then none else app.presented }

def step (count : String → Nat) (app : App π) : AppEvent → Except Trap (App π)
  | .stats event =>
      if app.Takes event then do
        let (stats, provider) ← app.stats.handle app.provider event
        return { app with stats, provider }
      else .ok app
  | .changePlayerTapped =>
      if app.presented = none then .ok (app.enqueue .presentPlayersViewController) else .ok app
  | .players event =>
      match app.top with
      | none => .ok app
      | some (screen, vc) => do
          let (vc, provider) ← vc.handle count app.provider event
          return { app with screens := app.screens.set screen vc, provider }
  | .didSelectRow row =>
      match app.top with
      | none => .ok app
      | some (screen, vc) =>
          if row < vc.players.length then .ok (app.enqueue (.selectRow screen row)) else .ok app
  | .runBlock position obeyed =>
      match app.queue[position]? with
      | none => .ok app
      | some block =>
          ({ app with queue := app.queue.eraseIdx position } : App π).runBlock obeyed block

/-! ### What a step does -/

/-- The event finds nothing to update, to save, to delete or to select. -/
def Idle (app : App π) : AppEvent → Prop
  | .stats e => app.presented = none → app.stats.player = none ∨ e.isUpdate = false
  | .players e => ∀ i vc, app.top = some (i, vc) → vc.Idle e
  | .runBlock position _ => ∀ screen row, app.queue[position]? = some (.selectRow screen row) →
      app.screens[screen]? = none
  | _ => True

/-- Nothing takes the event, or it refers to nothing that is there. -/
def Ignores (app : App π) : AppEvent → Prop
  | .stats e => ¬ app.Takes e
  | .changePlayerTapped => app.presented ≠ none
  | .players _ => app.top = none
  | .didSelectRow row => ∀ i vc, app.top = some (i, vc) → vc.players.length ≤ row
  | .runBlock position _ => app.queue[position]? = none

omit [DataProviding π] in
theorem Ignores.idle {app : App π} {event : AppEvent} (h : app.Ignores event) :
    app.Idle event := by
  cases event with
  | stats e =>
    intro hnone
    exact absurd (Or.inl hnone) h
  | players e =>
    intro i vc htop
    rw [show app.top = none from h] at htop
    cases htop
  | runBlock position obeyed =>
    intro screen row hqueue
    rw [show app.queue[position]? = none from h] at hqueue
    cases hqueue
  | _ => trivial

/-- The ways a step goes on, each with what it checked and the app it leaves. -/
inductive Stepped (count : String → Nat) (app : App π) : AppEvent → App π → Prop
  | ignored {event} (ignores : app.Ignores event) : Stepped count app event app
  | stats {e after} (takes : app.Takes e)
      (handled : app.stats.handle app.provider e = .ok after) :
      Stepped count app (.stats e) { app with stats := after.1, provider := after.2 }
  | changePlayerTapped (uncovered : app.presented = none) :
      Stepped count app .changePlayerTapped (app.enqueue .presentPlayersViewController)
  | players {e i vc after} (top : app.top = some (i, vc))
      (handled : vc.handle count app.provider e = .ok after) :
      Stepped count app (.players e)
        { app with screens := app.screens.set i after.1, provider := after.2 }
  | didSelectRow {row i vc} (top : app.top = some (i, vc)) (listed : row < vc.players.length) :
      Stepped count app (.didSelectRow row) (app.enqueue (.selectRow i row))
  | presented {position} (block : app.queue[position]? = some .presentPlayersViewController)
      (uncovered : app.presented = none) :
      Stepped count app (.runBlock position true)
        { app with
          queue := app.queue.eraseIdx position
          screens := app.screens ++ [.viewDidLoad app.provider]
          presented := some app.screens.length }
  | selected {position obeyed screen row vc player stats}
      (block : app.queue[position]? = some (.selectRow screen row))
      (found : app.screens[screen]? = some vc) (listed : vc.players[row]? = some player)
      (updated : app.stats.updateStatsForPlayer player.name app.provider = .ok stats) :
      Stepped count app (.runBlock position obeyed)
        { app with
          queue := app.queue.eraseIdx position
          stats
          presented := if app.presented = some screen ∧ obeyed then none else app.presented }
  /-- UIKit refused the block, or its screen is none of those presented. -/
  | dropped {position obeyed} (idle : app.Idle (.runBlock position obeyed)) :
      Stepped count app (.runBlock position obeyed)
        { app with queue := app.queue.eraseIdx position }

theorem stepped_of_runBlock {count : String → Nat} {app app' : App π} {position : Nat}
    {obeyed : Bool} {block : Block} (hblock : app.queue[position]? = some block)
    (h : ({ app with queue := app.queue.eraseIdx position } : App π).runBlock obeyed block =
      .ok app') : Stepped count app (.runBlock position obeyed) app' := by
  cases block with
  | presentPlayersViewController =>
    simp only [runBlock] at h
    split at h
    · rename_i hobeyed
      obtain ⟨huncovered, rfl⟩ := hobeyed
      cases h
      exact .presented hblock huncovered
    · cases h
      apply Stepped.dropped
      intro screen row hqueue
      rw [hblock] at hqueue
      cases hqueue
  | selectRow screen row =>
    simp only [runBlock] at h
    rcases hscreen : app.screens[screen]? with _ | vc
    · rw [hscreen] at h
      cases h
      apply Stepped.dropped
      intro screen' row' hqueue
      rw [hblock] at hqueue
      cases hqueue
      exact hscreen
    · rw [hscreen] at h
      simp only at h
      rcases hrow : vc.players[row]? with _ | player
      · rw [hrow] at h
        cases h
      · rw [hrow] at h
        obtain ⟨stats, hstats, h⟩ := bind_eq_ok.mp h
        cases h
        exact .selected hblock hscreen hrow hstats

/-- A step that goes on is one of these. -/
theorem stepped_of_step {count : String → Nat} {app app' : App π} {event : AppEvent}
    (h : app.step count event = .ok app') : Stepped count app event app' := by
  cases event with
  | stats e =>
    simp only [step] at h
    split at h
    · rename_i htakes
      obtain ⟨after, hhandle, h⟩ := bind_eq_ok.mp h
      cases h
      exact .stats htakes hhandle
    · rename_i htakes
      cases h
      exact .ignored htakes
  | changePlayerTapped =>
    simp only [step] at h
    split at h
    · rename_i hnone
      cases h
      exact .changePlayerTapped hnone
    · rename_i hsome
      cases h
      exact .ignored hsome
  | players e =>
    simp only [step] at h
    split at h
    · rename_i htop
      cases h
      exact .ignored htop
    · rename_i htop
      obtain ⟨after, hhandle, h⟩ := bind_eq_ok.mp h
      cases h
      exact .players htop hhandle
  | didSelectRow row =>
    simp only [step] at h
    split at h
    · rename_i htop
      cases h
      apply Stepped.ignored
      intro i vc htop'
      rw [htop] at htop'
      cases htop'
    · rename_i htop
      split at h
      · rename_i hrow
        cases h
        exact .didSelectRow htop hrow
      · rename_i hrow
        cases h
        apply Stepped.ignored
        intro i vc htop'
        rw [htop] at htop'
        cases htop'
        exact Nat.le_of_not_lt hrow
  | runBlock position obeyed =>
    simp only [step] at h
    split at h
    · rename_i hblock
      cases h
      exact .ignored hblock
    · rename_i hblock
      exact stepped_of_runBlock hblock h

/-- What a step did to the store, to the player held and displayed, and to the
    presentation. -/
inductive Did [LawfulProvider π] (app : App π) : AppEvent → App π → Prop
  /-- Nothing, but for a players screen that may have been presented. -/
  | quiet {event app'} (idle : app.Idle event) (provider : app'.provider = app.provider)
      (player : app'.stats.player = app.stats.player)
      (display : app'.stats.display = app.stats.display)
      (covered : app'.presented = none → app.presented = none) : Did app event app'
  /-- One counter of the player held was set, and the player stored and displayed. -/
  | updated {e app' held value result race write} (uncovered : app.presented = none)
      (player : app.stats.player = some held) (sets : e.Sets held value result race write)
      (updated : StatsViewController.Updated (held.setCounter value result race) write
        app.provider (app'.stats, app'.provider)) : Did app (.stats e) app'
  /-- The player of the form was saved. -/
  | saved {write app' i vc} (top : app.top = some (i, vc))
      (accepted : vc.form.IsOpen ∧ vc.addPlayerView.saveButtonIsEnabled = true)
      (fresh : vc.addPlayerView.playerResult.name ∉ LawfulProvider.contents app.provider)
      (ready' : LawfulProvider.Ready app'.provider)
      (stored' : LawfulProvider.contents app'.provider =
        write.choose (LawfulProvider.contents app.provider)
          ((LawfulProvider.contents app.provider).insert vc.addPlayerView.playerResult.name
            ⟨vc.addPlayerView.playerResult.race, .empty⟩))
      (stats : app'.stats = app.stats) (presented : app'.presented = app.presented) :
      Did app (.players (.tapOnSave write)) app'
  /-- The player of a row was deleted. -/
  | deleted {row write app' i vc listed} (top : app.top = some (i, vc))
      (listedAt : vc.players[row]? = some listed) (ready' : LawfulProvider.Ready app'.provider)
      (stored' : LawfulProvider.contents app'.provider =
        write.choose (LawfulProvider.contents app.provider)
          ((LawfulProvider.contents app.provider).erase listed.name))
      (stats : app'.stats = app.stats) (presented : app'.presented = app.presented) :
      Did app (.players (.commitDelete row write)) app'
  /-- A row was selected. -/
  | selected {position obeyed app' name}
      (player : app'.stats.player = DataProviding.loadPlayer name app.provider)
      (shown : ∀ player, app'.stats.player = some player →
        ∃ display, player.display = .ok display ∧ app'.stats.display = some display)
      (provider : app'.provider = app.provider) : Did app (.runBlock position obeyed) app'

/-- Every step that goes on did one of these. -/
theorem did_of_step [LawfulProvider π] {count : String → Nat} {app app' : App π}
    (hready : LawfulProvider.Ready app.provider) {event : AppEvent}
    (h : app.step count event = .ok app') : Did app event app' := by
  cases stepped_of_step h with
  | ignored ignores => exact .quiet ignores.idle rfl rfl rfl id
  | stats takes handled =>
    rcases StatsViewController.handle_eq_ok hready handled with
      ⟨hno, hplayer, hdisplay, hprovider⟩ |
      ⟨player, value, result, race, write, hplayer, hsets, hupdated⟩
    · exact .quiet (fun _ => hno) hprovider hplayer hdisplay id
    · have hnone := takes.presented_eq_none hsets.isUpdate
      exact .updated hnone hplayer hsets hupdated
  | changePlayerTapped uncovered => exact .quiet trivial rfl rfl rfl id
  | players top handled =>
    rcases PlayersViewController.handle_eq_ok hready handled with
      ⟨hprovider, hidle⟩ | ⟨write, rfl, haccepted, hfresh, hready', hcontents⟩ |
      ⟨row, write, player, rfl, hrow, hready', hcontents⟩
    · refine .quiet ?_ hprovider rfl rfl id
      intro i' vc' htop
      rw [top] at htop
      cases htop
      exact hidle
    · exact .saved top haccepted hfresh hready' hcontents rfl rfl
    · exact .deleted top hrow hready' hcontents rfl rfl
  | didSelectRow top listed => exact .quiet trivial rfl rfl rfl id
  | presented block uncovered =>
    refine .quiet ?_ rfl rfl rfl ?_
    · intro screen row hqueue
      rw [block] at hqueue
      cases hqueue
    · intro hnone
      cases hnone
  | selected block found listed updated =>
    obtain ⟨hplayer, hshown⟩ := StatsViewController.updateStatsForPlayer_eq_ok updated
    exact .selected hplayer hshown rfl
  | dropped idle => exact .quiet idle rfl rfl rfl id

theorem Did.ready [LawfulProvider π] {app app' : App π} {event : AppEvent}
    (hdid : Did app event app') (h : LawfulProvider.Ready app.provider) :
    LawfulProvider.Ready app'.provider := by
  cases hdid with
  | quiet idle provider => exact provider ▸ h
  | updated uncovered player sets updated => exact updated.ready
  | saved top accepted fresh ready' => exact ready'
  | deleted top listedAt ready' => exact ready'
  | selected player shown provider => exact provider ▸ h

end App

end W3Stats

import W3Stats.App

/-!
# The table of the players screen

A table view keeps the cells it shows and is told what changed: everything is loaded
again after a player was added, and a deletion only removes its row, after which
UIKit compares the number of rows with the one it had and throws if they do not
agree.  Cells are reused, and a reused one keeps its old image when the new one is
not found.  Here every players screen has its table, and the events of the rows
come through it.
-/

namespace W3Stats

open StepMachine

/-! ### Cells -/

/-- The images of the asset catalog. -/
def imageNames : List String :=
  ["add", "add_highlighted", "arrow", "background", "checkmark", "default_player", "elf", "human",
    "orc", "undead"]

structure PlayerCellContent where
  playerImageName : String
  name : String
deriving DecidableEq, Repr

structure PlayerCell where
  playerImage : Option String
  nameText : String
deriving DecidableEq, Repr

def PlayerCell.displayContent (content : PlayerCellContent) (cell : PlayerCell) : PlayerCell where
  playerImage :=
    if imageNames.contains content.playerImageName then some content.playerImageName
    else cell.playerImage
  nameText := content.name

namespace PlayersViewController

def numberOfRows (vc : PlayersViewController) : Nat := vc.players.length

/-- `tableView(_:cellForRowAt:)`, with the cell that is dequeued. -/
def cellForRow (row : Nat) (dequeued : PlayerCell) (vc : PlayersViewController) :
    Except Trap PlayerCell :=
  match vc.players[row]? with
  | none => .error .indexOutOfRange
  | some player => .ok (dequeued.displayContent ⟨player.race.rawValue, player.name⟩)

/-- What the cells are to show. -/
def cells (vc : PlayersViewController) : List PlayerCell :=
  vc.players.map fun player => ⟨some player.race.rawValue, player.name⟩

end PlayersViewController

/-! ### Tables -/

inductive TableTrap where
  | trap (trap : Trap)
  /-- The number of rows after an update is not the one before less the deleted ones. -/
  | invalidUpdate
deriving DecidableEq, Repr

namespace UITableView

/-- The cells of all rows, loaded one after the other. -/
def reloadData (dequeued : Nat → PlayerCell) (vc : PlayersViewController) :
    Except TableTrap (List PlayerCell) :=
  (List.range vc.numberOfRows).mapM fun row =>
    (vc.cellForRow row (dequeued row)).mapError .trap

def deleteRow (row : Nat) (vc : PlayersViewController) (rows : List PlayerCell) :
    Except TableTrap (List PlayerCell) :=
  if vc.numberOfRows + 1 = rows.length then .ok (rows.eraseIdx row) else .error .invalidUpdate

end UITableView

structure TableApp (π : Type) where
  app : App π
  /-- The table of each players screen presented so far. -/
  tables : List (List PlayerCell)

inductive TableEvent where
  /-- An event of the app, with the cells that are dequeued if it loads a table. -/
  | app (event : AppEvent) (dequeued : Nat → PlayerCell)
  /-- A row of a table is scrolled into sight. -/
  | willDisplay (screen row : Nat) (dequeued : PlayerCell)

/-- The event of the app, if there is one. -/
def TableEvent.appEvent? : TableEvent → Option AppEvent
  | .app event _ => some event
  | .willDisplay _ _ _ => none

namespace TableApp

variable {π : Type} [DataProviding π]

def launch (provider : π) : TableApp π := ⟨.launch provider, []⟩

def stepApp (count : String → Nat) (s : TableApp π) (event : AppEvent) :
    Except TableTrap (App π) := (s.app.step count event).mapError .trap

/-- The screen that is presented, and its table. -/
def top (s : TableApp π) : Option (Nat × PlayersViewController × List PlayerCell) :=
  s.app.top.bind fun (i, vc) => s.tables[i]?.map fun rows => (i, vc, rows)

/-- Swiping a row shows its delete button; the handler ends with `deleteRows`. -/
def commitDelete (count : String → Nat) (row : Nat) (write : Write) (s : TableApp π) :
    Except TableTrap (TableApp π) :=
  match s.top with
  | none => .ok s
  | some (i, vc, rows) =>
      if row < rows.length then
        if row < vc.players.length then do
          let app ← s.stepApp count (.players (.commitDelete row write))
          match app.screens[i]? with
          | none => .ok { s with app }
          | some vc => do
              let rows ← UITableView.deleteRow row vc rows
              return ⟨app, s.tables.set i rows⟩
        else .error (.trap .indexOutOfRange)
      else .ok s

/-- Saving a new player ends with `reloadData`. -/
def tapOnSave (count : String → Nat) (write : Write) (dequeued : Nat → PlayerCell)
    (s : TableApp π) : Except TableTrap (TableApp π) := do
  let app ← s.stepApp count (.players (.tapOnSave write))
  match s.top with
  | none => return { s with app }
  | some (i, vc, _) =>
      if vc.form.IsOpen ∧ vc.addPlayerView.saveButtonIsEnabled then
        match app.screens[i]? with
        | none => return { s with app }
        | some vc => do
            let rows ← UITableView.reloadData dequeued vc
            return ⟨app, s.tables.set i rows⟩
      else return { s with app }

/-- Only the rows of the table can be tapped. -/
def didSelectRow (count : String → Nat) (row : Nat) (s : TableApp π) :
    Except TableTrap (TableApp π) :=
  match s.top with
  | none => .ok s
  | some (_, _, rows) =>
      if row < rows.length then do
        let app ← s.stepApp count (.didSelectRow row)
        return { s with app }
      else .ok s

/-- A screen that was presented loads its table. -/
def runBlock (count : String → Nat) (position : Nat) (obeyed : Bool) (dequeued : Nat → PlayerCell)
    (s : TableApp π) : Except TableTrap (TableApp π) := do
  let app ← s.stepApp count (.runBlock position obeyed)
  match app.screens[s.tables.length]? with
  | none => return { s with app }
  | some vc => do
      let rows ← UITableView.reloadData dequeued vc
      return ⟨app, s.tables ++ [rows]⟩

def willDisplay (screen row : Nat) (dequeued : PlayerCell) (s : TableApp π) :
    Except TableTrap (TableApp π) :=
  match s.app.screens[screen]?, s.tables[screen]? with
  | some vc, some rows =>
      if row < rows.length then do
        let cell ← (vc.cellForRow row dequeued).mapError .trap
        return { s with tables := s.tables.set screen (rows.set row cell) }
      else .ok s
  | _, _ => .ok s

def step (count : String → Nat) (s : TableApp π) : TableEvent → Except TableTrap (TableApp π)
  | .app (.players (.commitDelete row write)) _ => s.commitDelete count row write
  | .app (.players (.tapOnSave write)) dequeued => s.tapOnSave count write dequeued
  | .app (.didSelectRow row) _ => s.didSelectRow count row
  | .app (.runBlock position obeyed) dequeued => s.runBlock count position obeyed dequeued
  | .app event _ => do
      let app ← s.stepApp count event
      return { s with app }
  | .willDisplay screen row dequeued => s.willDisplay screen row dequeued

end TableApp

/-! ### Loading a table -/

theorem imageNames_rawValue (race : Race) : imageNames.contains race.rawValue = true := by
  cases race <;> decide

/-- A cell shows the player of its row, whatever it showed before. -/
theorem PlayersViewController.cellForRow_eq {vc : PlayersViewController} {row : Nat}
    (h : row < vc.cells.length) (dequeued : PlayerCell) :
    vc.cellForRow row dequeued = .ok vc.cells[row] := by
  have hrow : row < vc.players.length := by
    rwa [cells, List.length_map] at h
  simp only [cellForRow, List.getElem?_eq_getElem hrow, PlayerCell.displayContent,
    imageNames_rawValue, if_true, cells, List.getElem_map]

theorem mapM_eq_ok {α β ε : Type} {f : α → Except ε β} {g : α → β} {l : List α}
    (h : ∀ a ∈ l, f a = .ok (g a)) : l.mapM f = .ok (l.map g) := by
  induction l with
  | nil => rfl
  | cons a l ih =>
    rw [List.mapM_cons, h a List.mem_cons_self, ih fun b hb => h b (List.mem_cons_of_mem a hb)]
    rfl

theorem UITableView.reloadData_eq (dequeued : Nat → PlayerCell) (vc : PlayersViewController) :
    reloadData dequeued vc = .ok vc.cells := by
  have hlength : vc.numberOfRows = vc.cells.length := by
    rw [PlayersViewController.cells, List.length_map, PlayersViewController.numberOfRows]
  have hcells : (List.range vc.numberOfRows).map (fun row => vc.cells.getD row ⟨none, ""⟩) =
      vc.cells := by
    apply List.ext_getElem
    · rw [List.length_map, List.length_range, hlength]
    · intro row hrow hrow'
      simp [hrow']
  rw [reloadData, mapM_eq_ok (g := fun row => vc.cells.getD row ⟨none, ""⟩), hcells]
  intro row hrow
  have hrow' : row < vc.cells.length := hlength ▸ List.mem_range.mp hrow
  rw [PlayersViewController.cellForRow_eq hrow']
  simp [hrow', Except.mapError]

/-! ### What the tables show -/

namespace TableApp

variable {π : Type} [DataProviding π] {app app' : App π} {count : String → Nat}

/-- The app with tables that show the players of their screens. -/
def shown (app : App π) : TableApp π := ⟨app, app.screens.map PlayersViewController.cells⟩

/-- How the app goes on, with such tables. -/
def outcome : Except Trap (App π) → Except TableTrap (TableApp π)
  | .ok app => .ok (shown app)
  | .error t => .error (.trap t)

omit [DataProviding π] in
theorem top_shown (app : App π) :
    (shown app).top = app.top.map fun (i, vc) => (i, vc, vc.cells) := by
  rcases htop : app.top with _ | ⟨i, vc⟩
  · simp [top, shown, htop]
  · have hscreen := App.screens_of_top htop
    simp [top, shown, htop, hscreen]

omit [DataProviding π] in
/-- Tables of screens whose players are the same are the same. -/
theorem shown_of_players (h : app'.screens.map PlayersViewController.players =
    app.screens.map PlayersViewController.players) :
    (⟨app', (shown app).tables⟩ : TableApp π) = shown app' := by
  have hcells : ∀ app : App π, app.screens.map PlayersViewController.cells =
      (app.screens.map PlayersViewController.players).map
        (List.map fun player => ⟨some player.race.rawValue, player.name⟩) := by
    intro app
    rw [List.map_map]
    rfl
  rw [shown, shown, hcells, hcells, h]

/-- A step that changes no list of players changes no table. -/
theorem stepApp_of_players (event : AppEvent) (hstep : ∀ app', app.step count event = .ok app' →
      app'.screens.map PlayersViewController.players =
        app.screens.map PlayersViewController.players) :
    (do
      let after ← (shown app).stepApp count event
      return ⟨after, (shown app).tables⟩ : Except TableTrap (TableApp π)) =
      outcome (app.step count event) := by
  rw [stepApp, show (shown app).app = app from rfl]
  rcases happ : app.step count event with x | after
  · rfl
  · exact congrArg Except.ok (shown_of_players (hstep after happ))

omit [DataProviding π] in
theorem map_players_set {i : Nat} {vc vc' : PlayersViewController}
    (hscreen : app.screens[i]? = some vc) (hplayers : vc'.players = vc.players) :
    (app.screens.set i vc').map PlayersViewController.players =
      app.screens.map PlayersViewController.players := by
  obtain ⟨hi, hget⟩ := List.getElem?_eq_some_iff.mp hscreen
  apply List.ext_getElem?
  intro j
  rw [List.getElem?_map, List.getElem?_map, List.getElem?_set]
  by_cases hj : i = j
  · subst hj
    simp [hi, hget, hplayers]
  · simp [hj]

/-- Only a save and a deletion change a list of players. -/
theorem players_handle {vc : PlayersViewController} {provider : π} {e : PlayersEvent}
    {after : PlayersViewController × π} (h : vc.handle count provider e = .ok after)
    (hsave : ∀ write, e ≠ .tapOnSave write) (hdelete : ∀ row write, e ≠ .commitDelete row write) :
    after.1.players = vc.players := by
  obtain ⟨reply, hafter⟩ := PlayersViewController.screen_of_handle h
  rw [hafter]
  cases e with
  | tapOnSave write => exact absurd rfl (hsave write)
  | commitDelete row write => exact absurd rfl (hdelete row write)
  | type text =>
    simp only [PlayersViewController.screenAfter]
    split <;> rfl
  | didSelectRace row =>
    simp only [PlayersViewController.screenAfter]
    split <;> rfl
  | addPlayerButtonTapped => rfl
  | tappedOnBackground =>
    simp only [PlayersViewController.screenAfter, PlayersViewController.tappedOnBackground]
    split <;> rfl
  | unblurCompleted => rfl

theorem set_getElem?_self {α : Type} {l : List α} {i : Nat} {a : α} (h : l[i]? = some a) :
    l.set i a = l := by
  obtain ⟨hi, rfl⟩ := List.getElem?_eq_some_iff.mp h
  exact List.set_getElem_self hi

omit [DataProviding π] in
/-- The table of a screen that changed is its table. -/
theorem shown_set {i : Nat} {vc' : PlayersViewController} {provider : π}
    {rows : List PlayerCell} (hrows : rows = vc'.cells) :
    (⟨{ app with screens := app.screens.set i vc', provider }, (shown app).tables.set i rows⟩ :
      TableApp π) = shown { app with screens := app.screens.set i vc', provider } := by
  rw [shown, shown, hrows]
  simp only [List.map_set]

theorem players_eq_ok {i : Nat} {vc : PlayersViewController} (htop : app.top = some (i, vc))
    {e : PlayersEvent} (h : app.step count (.players e) = .ok app') :
    ∃ after, vc.handle count app.provider e = .ok after ∧
      app' = { app with screens := app.screens.set i after.1, provider := after.2 } ∧
      app'.screens[i]? = some after.1 := by
  simp only [App.step, htop] at h
  obtain ⟨after, hhandle, h⟩ := bind_eq_ok.mp h
  cases h
  obtain ⟨hi, -⟩ := List.getElem?_eq_some_iff.mp (App.screens_of_top htop)
  exact ⟨after, hhandle, rfl, by simp [hi]⟩

/-- Removing a row leaves the table of the players that are left. -/
theorem step_commitDelete (row : Nat) (write : Write) :
    (shown app).commitDelete count row write =
      outcome (app.step count (.players (.commitDelete row write))) := by
  rw [commitDelete, top_shown]
  rcases htop : app.top with _ | ⟨i, vc⟩
  · simp only [App.step, htop]
    rfl
  · have hlength : vc.cells.length = vc.players.length := List.length_map _
    simp only [Option.map_some, hlength]
    by_cases hrow : row < vc.players.length
    · rw [if_pos hrow, if_pos hrow, stepApp, show (shown app).app = app from rfl]
      rcases happ : app.step count (.players (.commitDelete row write)) with x | app'
      · rfl
      · obtain ⟨after, hhandle, rfl, hscreen⟩ := players_eq_ok htop happ
        rw [PlayersViewController.handle, if_pos hrow] at hhandle
        obtain ⟨reply, hafter⟩ := PlayersViewController.commitDelete_eq_ok hhandle
        have hplayers : after.1.players = vc.players.eraseIdx row := by
          rw [hafter, PlayersViewController.players_removeRow]
        have hcells : vc.cells.eraseIdx row = after.1.cells := by
          rw [PlayersViewController.cells, PlayersViewController.cells, hplayers,
            List.eraseIdx_map]
        have hrows : after.1.numberOfRows + 1 = vc.cells.length := by
          rw [PlayersViewController.numberOfRows, hplayers, hlength,
            List.length_eraseIdx_of_lt hrow]
          omega
        simp only [Except.mapError, bind, Except.bind, hscreen, UITableView.deleteRow, if_pos hrows]
        exact congrArg Except.ok (shown_set hcells)
    · rw [if_neg hrow]
      simp only [App.step, htop, PlayersViewController.handle, if_neg hrow, bind, Except.bind,
        set_getElem?_self (App.screens_of_top htop)]
      rfl

/-- A save loads the whole table again. -/
theorem step_tapOnSave (write : Write) (dequeued : Nat → PlayerCell) :
    (shown app).tapOnSave count write dequeued =
      outcome (app.step count (.players (.tapOnSave write))) := by
  rw [tapOnSave, stepApp, show (shown app).app = app from rfl, top_shown]
  rcases happ : app.step count (.players (.tapOnSave write)) with x | app'
  · rfl
  · rcases htop : app.top with _ | ⟨i, vc⟩
    · simp only [App.step, htop] at happ
      cases happ
      rfl
    · obtain ⟨after, hhandle, rfl, hscreen⟩ := players_eq_ok htop happ
      simp only [Except.mapError, bind, Except.bind, Option.map_some, hscreen]
      by_cases haccepted : vc.form.IsOpen ∧ vc.addPlayerView.saveButtonIsEnabled = true
      · simp only [if_pos haccepted, UITableView.reloadData_eq]
        exact congrArg Except.ok (shown_set rfl)
      · rw [PlayersViewController.handle, if_neg haccepted] at hhandle
        cases hhandle
        simp only [if_neg haccepted]
        exact congrArg Except.ok
          (shown_of_players (map_players_set (App.screens_of_top htop) rfl))

theorem step_didSelectRow (row : Nat) :
    (shown app).didSelectRow count row = outcome (app.step count (.didSelectRow row)) := by
  rw [didSelectRow, top_shown]
  rcases htop : app.top with _ | ⟨i, vc⟩
  · simp only [App.step, htop]
    rfl
  · have hlength : vc.cells.length = vc.players.length := List.length_map _
    simp only [Option.map_some, hlength, stepApp, show (shown app).app = app from rfl, App.step,
      htop]
    by_cases hrow : row < vc.players.length
    · simp only [if_pos hrow]
      rfl
    · simp only [if_neg hrow]
      rfl

/-- A screen that is presented gets the table of its players. -/
theorem step_runBlock (position : Nat) (obeyed : Bool) (dequeued : Nat → PlayerCell) :
    (shown app).runBlock count position obeyed dequeued =
      outcome (app.step count (.runBlock position obeyed)) := by
  have hlength : (shown app).tables.length = app.screens.length := List.length_map _
  rw [runBlock, stepApp, show (shown app).app = app from rfl, hlength]
  rcases happ : app.step count (.runBlock position obeyed) with x | app'
  · rfl
  · have hnone : app.screens[app.screens.length]? = none := List.getElem?_eq_none le_rfl
    simp only [Except.mapError, bind, Except.bind]
    cases App.stepped_of_step happ with
    | ignored ignores =>
      simp only [hnone]
      rfl
    | presented block uncovered =>
      simp only [List.getElem?_concat_length, UITableView.reloadData_eq]
      apply congrArg Except.ok
      rw [shown, shown]
      simp
    | selected block found listed updated =>
      simp only [hnone]
      rfl
    | dropped idle =>
      simp only [hnone]
      rfl

omit [DataProviding π] in
/-- A row that is scrolled into sight shows what the table has for it. -/
theorem step_willDisplay (screen row : Nat) (dequeued : PlayerCell) :
    (shown app).willDisplay screen row dequeued = .ok (shown app) := by
  have htables : (shown app).tables[screen]? = app.screens[screen]?.map (·.cells) :=
    List.getElem?_map
  rw [willDisplay, htables, show (shown app).app = app from rfl]
  rcases hscreen : app.screens[screen]? with _ | vc
  · rfl
  · simp only [Option.map_some]
    by_cases hrow : row < vc.cells.length
    · rw [if_pos hrow, PlayersViewController.cellForRow_eq hrow]
      simp only [Except.mapError, bind, Except.bind, List.set_getElem_self]
      have hrows : (shown app).tables[screen]? = some vc.cells := by
        rw [htables, hscreen]
        rfl
      rw [set_getElem?_self hrows]
      rfl
    · rw [if_neg hrow]

/-- A step with tables that show the players is the step of the app, and leaves them so. -/
theorem step_shown (count : String → Nat) (app : App π) (event : TableEvent) :
    (shown app).step count event =
      match event.appEvent? with
      | none => .ok (shown app)
      | some event => outcome (app.step count event) := by
  cases event with
  | willDisplay screen row dequeued => exact step_willDisplay screen row dequeued
  | app event dequeued =>
    cases event with
    | stats e =>
      refine stepApp_of_players (.stats e) fun app' happ => ?_
      cases App.stepped_of_step happ with
      | ignored ignores => rfl
      | stats takes handled => rfl
    | changePlayerTapped =>
      refine stepApp_of_players .changePlayerTapped fun app' happ => ?_
      cases App.stepped_of_step happ with
      | ignored ignores => rfl
      | changePlayerTapped uncovered => rfl
    | didSelectRow row => exact step_didSelectRow row
    | runBlock position obeyed => exact step_runBlock position obeyed dequeued
    | players e =>
      cases e with
      | tapOnSave write => exact step_tapOnSave write dequeued
      | commitDelete row write => exact step_commitDelete row write
      | _ =>
        refine stepApp_of_players (.players _) fun app' happ => ?_
        cases App.stepped_of_step happ with
        | ignored ignores => rfl
        | players top handled =>
          exact map_players_set (App.screens_of_top top)
            (players_handle handled (by simp) (by simp))

/-- **The tables show the players.**  Whatever cells are reused, the app with the tables
    of its players screens goes on and stops as the app does: UIKit never finds a number
    of rows that does not agree, no handler of a row that is shown finds it missing, and
    in the end each table shows the players of its screen, row by row. -/
theorem run_tables (count : String → Nat) (provider : π) (events : List TableEvent) :
    run (step count) (launch provider) events =
      outcome (run (App.step count) (App.launch provider)
        (events.filterMap TableEvent.appEvent?)) := by
  have hrun : ∀ app : App π, run (step count) (shown app) events =
      outcome (run (App.step count) app (events.filterMap TableEvent.appEvent?)) := by
    induction events with
    | nil => exact fun app => rfl
    | cons event events ih =>
      intro app
      have hstep := step_shown count app event
      rcases hevent : event.appEvent? with _ | event'
      · rw [hevent] at hstep
        rw [run_cons_of_ok hstep, List.filterMap_cons_none hevent]
        exact ih app
      · rw [hevent] at hstep
        dsimp only at hstep
        rw [List.filterMap_cons_some hevent]
        rcases happ : app.step count event' with x | app'
        · rw [happ] at hstep
          rw [run_cons_of_error hstep, run_cons_of_error happ]
          rfl
        · rw [happ] at hstep
          rw [run_cons_of_ok hstep, run_cons_of_ok happ]
          exact ih app'
  exact hrun (App.launch provider)

end TableApp

end W3Stats

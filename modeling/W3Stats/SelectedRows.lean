import W3Stats.App

/-!
# The rows that selection blocks find

A tap on a row enqueues a block that holds the index of the row and reads the
array of players only when it runs, while the deletion of a row reads the player
at once.  Beside the queue we keep the name that was shown at each tapped row.  A
pending block loses its player exactly when a deletion moves another name, or
nothing, up to its row.
-/

namespace W3Stats

open StepMachine

namespace App

variable {π : Type}

/-- The name a selection block passes to `updateStatsForPlayer` if it runs now, or
    `none` when its row is not in `players`. -/
def nameAt (app : App π) (screen row : Nat) : Option String :=
  (app.screens[screen]?).bind fun vc => (vc.players[row]?).map Player.name

theorem nameAt_of_screens {app : App π} {screen : Nat} {vc : PlayersViewController}
    (h : app.screens[screen]? = some vc) (row : Nat) :
    app.nameAt screen row = (vc.players[row]?).map Player.name := by
  rw [nameAt, h]
  rfl

/-- That is the name the block passes on. -/
theorem runBlock_of_nameAt [DataProviding π] {app : App π} {screen row : Nat} {name : String}
    (h : app.nameAt screen row = some name) (obeyed : Bool) :
    app.runBlock obeyed (.selectRow screen row) = do
      let stats ← app.stats.updateStatsForPlayer name app.provider
      return { app with
        stats
        presented := if app.presented = some screen ∧ obeyed then none else app.presented } := by
  obtain ⟨vc, hscreen, hname⟩ := Option.bind_eq_some_iff.mp h
  obtain ⟨player, hplayer, rfl⟩ := Option.map_eq_some_iff.mp hname
  simp only [runBlock, hscreen, hplayer]

/-- Without a name at its row on a screen there is, the block traps. -/
theorem runBlock_of_nameAt_none [DataProviding π] {app : App π} {screen row : Nat}
    (hscreen : screen < app.screens.length) (h : app.nameAt screen row = none) (obeyed : Bool) :
    app.runBlock obeyed (.selectRow screen row) = .error .indexOutOfRange := by
  have hget := List.getElem?_eq_getElem hscreen
  rw [nameAt, hget, Option.bind_some, Option.map_eq_none_iff] at h
  simp only [runBlock, hget, h]

theorem nameAt_congr {app app' : App π} {screen : Nat}
    (h : app'.screens[screen]? = app.screens[screen]?) (row : Nat) :
    app'.nameAt screen row = app.nameAt screen row := by
  rw [nameAt, h, nameAt]

end App

/-! ### What a step does to the queue and to the rows -/

namespace PlayersViewController

variable {π : Type} [DataProviding π] {vc : PlayersViewController} {provider : π}

theorem players_commitDelete {count : String → Nat} {deleted : Nat} {write : Write}
    {after : PlayersViewController × π}
    (h : vc.handle count provider (.commitDelete deleted write) = .ok after) :
    after.1.players = vc.players.eraseIdx deleted := by
  obtain ⟨reply, hafter⟩ := screen_of_handle h
  rw [hafter, screenAfter]
  split
  · exact players_removeRow deleted reply vc
  · rename_i hrow
    exact (List.eraseIdx_of_length_le (Nat.le_of_not_lt hrow)).symm

/-- Every other event only appends players. -/
theorem exists_players_handle {count : String → Nat} {event : PlayersEvent}
    (hne : ∀ deleted write, event ≠ .commitDelete deleted write)
    {after : PlayersViewController × π} (h : vc.handle count provider event = .ok after) :
    ∃ added, after.1.players = vc.players ++ added := by
  obtain ⟨reply, hafter⟩ := screen_of_handle h
  rw [hafter]
  cases event with
  | tapOnSave write =>
    simp only [screenAfter]
    split
    · exact ⟨_, players_listNewPlayer _ reply vc⟩
    · exact ⟨[], (List.append_nil _).symm⟩
  | commitDelete deleted write => exact absurd rfl (hne deleted write)
  | addPlayerButtonTapped => exact ⟨[], (List.append_nil _).symm⟩
  | unblurCompleted => exact ⟨[], (List.append_nil _).symm⟩
  | _ =>
    refine ⟨[], ?_⟩
    simp only [screenAfter, tappedOnBackground, List.append_nil]
    split <;> rfl

end PlayersViewController

namespace App

variable {π : Type} [DataProviding π] {app app' : App π} {count : String → Nat}

/-- The queue after an event. -/
def queueAfter (app : App π) : AppEvent → List Block
  | .changePlayerTapped =>
      if app.presented = none then app.queue ++ [.presentPlayersViewController] else app.queue
  | .didSelectRow row =>
      match app.top with
      | none => app.queue
      | some (screen, vc) =>
          if row < vc.players.length then app.queue ++ [.selectRow screen row] else app.queue
  | .runBlock position _ => app.queue.eraseIdx position
  | _ => app.queue

omit [DataProviding π] in
theorem Ignores.queueAfter {event : AppEvent} (h : app.Ignores event) :
    app.queueAfter event = app.queue := by
  cases event with
  | changePlayerTapped =>
    rw [App.queueAfter, if_neg h]
  | didSelectRow row =>
    simp only [App.queueAfter]
    split
    · rfl
    · rename_i htop
      rw [if_neg (Nat.not_lt.mpr (h _ _ htop))]
  | runBlock position obeyed => exact List.eraseIdx_of_length_le (List.getElem?_eq_none_iff.mp h)
  | _ => rfl

theorem queue_of_step {event : AppEvent} (h : app.step count event = .ok app') :
    app'.queue = app.queueAfter event := by
  cases stepped_of_step h with
  | ignored ignores => exact ignores.queueAfter.symm
  | changePlayerTapped uncovered =>
    rw [queueAfter, if_pos uncovered]
    rfl
  | didSelectRow top listed =>
    simp only [queueAfter, top, if_pos listed]
    rfl
  | _ => rfl

/-- Every row that was there lists the same name. -/
def KeepsNamesAt (app app' : App π) : Prop :=
  ∀ screen row name, app.nameAt screen row = some name → app'.nameAt screen row = some name

omit [DataProviding π] in
theorem KeepsNamesAt.of_screens (h : app'.screens = app.screens) : app.KeepsNamesAt app' := by
  intro screen row name hname
  rw [nameAt, h]
  exact hname

omit [DataProviding π] in
theorem keepsNamesAt_of_players {screen : Nat} {vc vc' : PlayersViewController}
    (hscreen : app.screens[screen]? = some vc) {added : List Player}
    (hplayers : vc'.players = vc.players ++ added)
    (hscreens : app'.screens = app.screens.set screen vc') : app.KeepsNamesAt app' := by
  intro screen' row name hname
  by_cases hne : screen = screen'
  · subst hne
    obtain ⟨hlength, -⟩ := List.getElem?_eq_some_iff.mp hscreen
    have hnew : app'.screens[screen]? = some vc' := by
      rw [hscreens, List.getElem?_set_self hlength]
    rw [nameAt_of_screens hscreen, Option.map_eq_some_iff] at hname
    obtain ⟨player, hplayer, rfl⟩ := hname
    obtain ⟨hrow, -⟩ := List.getElem?_eq_some_iff.mp hplayer
    rw [nameAt_of_screens hnew, hplayers, List.getElem?_append_left hrow, hplayer]
    rfl
  · have hsame : app'.screens[screen']? = app.screens[screen']? := by
      rw [hscreens, List.getElem?_set_ne hne]
    rw [nameAt_congr hsame]
    exact hname

omit [DataProviding π] in
/-- A screen that is new comes after those there were. -/
theorem keepsNamesAt_of_append {vc : PlayersViewController}
    (hscreens : app'.screens = app.screens ++ [vc]) : app.KeepsNamesAt app' := by
  intro screen row name hname
  obtain ⟨vc', hscreen, -⟩ := Option.bind_eq_some_iff.mp hname
  obtain ⟨hlength, -⟩ := List.getElem?_eq_some_iff.mp hscreen
  have hsame : app'.screens[screen]? = app.screens[screen]? := by
    rw [hscreens, List.getElem?_append_left hlength]
  rw [nameAt_congr hsame]
  exact hname

/-- Nothing but a deletion changes a row. -/
theorem keepsNamesAt_of_step {event : AppEvent}
    (hne : ∀ deleted write, event ≠ .players (.commitDelete deleted write))
    (h : app.step count event = .ok app') : app.KeepsNamesAt app' := by
  cases stepped_of_step h with
  | players top handled =>
    rename_i e screen vc after
    have hother : ∀ deleted write, e ≠ .commitDelete deleted write := by
      rintro deleted write rfl
      exact hne deleted write rfl
    obtain ⟨added, hplayers⟩ := PlayersViewController.exists_players_handle hother handled
    exact keepsNamesAt_of_players (screens_of_top top) hplayers rfl
  | presented block uncovered => exact keepsNamesAt_of_append rfl
  | _ => exact .of_screens rfl

/-- A deletion moves the rows below it up. -/
theorem nameAt_of_deletion {deleted : Nat} {write : Write} {screen : Nat}
    {vc : PlayersViewController} (htop : app.top = some (screen, vc))
    (h : app.step count (.players (.commitDelete deleted write)) = .ok app')
    (screen' row : Nat) : app'.nameAt screen' row =
      if screen' = screen ∧ deleted ≤ row then app.nameAt screen' (row + 1)
      else app.nameAt screen' row := by
  have hscreen := screens_of_top htop
  simp only [step, htop] at h
  obtain ⟨after, hhandle, h⟩ := bind_eq_ok.mp h
  cases h
  have hplayers := PlayersViewController.players_commitDelete hhandle
  by_cases hsame : screen' = screen
  · subst hsame
    obtain ⟨hlength, -⟩ := List.getElem?_eq_some_iff.mp hscreen
    have hnew : (app.screens.set screen' after.1)[screen']? = some after.1 :=
      List.getElem?_set_self hlength
    rw [nameAt_of_screens hnew, nameAt_of_screens hscreen, nameAt_of_screens hscreen, hplayers,
      List.getElem?_eraseIdx]
    by_cases hrow : deleted ≤ row
    · rw [if_neg (by omega), if_pos ⟨rfl, hrow⟩]
    · rw [if_pos (by omega), if_neg (fun hboth => hrow hboth.2)]
  · rw [if_neg (fun hboth => hsame hboth.1)]
    exact nameAt_congr (List.getElem?_set_ne (Ne.symm hsame)) row

end App

/-! ### The names that were tapped -/

/-- The app and, for each block of its queue, the name shown at the row when it was
    tapped. -/
structure TappedApp (π : Type) where
  app : App π
  tapped : List (Option String)

namespace TappedApp

variable {π : Type} [DataProviding π]

def launch (provider : π) : TappedApp π := ⟨.launch provider, [none]⟩

def tappedAfter (s : TappedApp π) : AppEvent → List (Option String)
  | .changePlayerTapped => if s.app.presented = none then s.tapped ++ [none] else s.tapped
  | .didSelectRow row =>
      match s.app.top with
      | none => s.tapped
      | some (screen, vc) =>
          if row < vc.players.length then s.tapped ++ [s.app.nameAt screen row] else s.tapped
  | .runBlock position _ => s.tapped.eraseIdx position
  | _ => s.tapped

def step (count : String → Nat) (s : TappedApp π) (event : AppEvent) :
    Except Trap (TappedApp π) := do
  let app ← s.app.step count event
  return ⟨app, s.tappedAfter event⟩

/-- A selection block that runs finds its row, and passes on the name that was shown
    there when it was tapped. -/
def SelectsTapped (s : TappedApp π) (event : AppEvent) : Prop :=
  ∀ position obeyed screen row, event = .runBlock position obeyed →
    s.app.queue[position]? = some (.selectRow screen row) →
    ∃ name, s.tapped[position]? = some (some name) ∧ s.app.nameAt screen row = some name

/-- Every pending block would. -/
def Fresh (s : TappedApp π) : Prop :=
  ∀ position screen row : Nat, s.app.queue[position]? = some (.selectRow screen row) →
    ∃ name, s.tapped[position]? = some (some name) ∧ s.app.nameAt screen row = some name

/-- A deletion leaves each pending block of its screen the name at its row: the row
    lies above the one deleted, or the row below it lists the same name. -/
def KeepsRows (s : TappedApp π) (event : AppEvent) : Prop :=
  ∀ deleted write screen, event = .players (.commitDelete deleted write) →
    s.app.presented = some screen → (s.app.nameAt screen deleted).isSome →
    ∀ row, Block.selectRow screen row ∈ s.app.queue → deleted ≤ row →
      s.app.nameAt screen (row + 1) = s.app.nameAt screen row

/-! ### Which steps keep the pending blocks fresh -/

/-- The two lists are kept side by side. -/
def Aligned (s : TappedApp π) : Prop := s.tapped.length = s.app.queue.length

variable {s t : TappedApp π} {count : String → Nat} {event : AppEvent}

theorem step_eq_ok (h : s.step count event = .ok t) :
    s.app.step count event = .ok t.app ∧ t.tapped = s.tappedAfter event := by
  obtain ⟨app, happ, h⟩ := bind_eq_ok.mp h
  cases h
  exact ⟨happ, rfl⟩

theorem Aligned.step (h : s.Aligned) (ht : s.step count event = .ok t) : t.Aligned := by
  obtain ⟨happ, htapped⟩ := step_eq_ok ht
  unfold Aligned at h ⊢
  rw [htapped, App.queue_of_step happ]
  cases event with
  | changePlayerTapped =>
    simp only [tappedAfter, App.queueAfter]
    split <;> simp [h]
  | didSelectRow row =>
    simp only [tappedAfter, App.queueAfter]
    split
    · exact h
    · split <;> simp [h]
  | runBlock position obeyed =>
    simp only [tappedAfter, App.queueAfter, List.length_eraseIdx, h]
  | _ => exact h

omit [DataProviding π] in
/-- A block that is enqueued for a row on the screen is fresh. -/
theorem Fresh.append (h : s.Fresh) (haligned : s.Aligned) {block : Block} {tap : Option String}
    (hqueue : t.app.queue = s.app.queue ++ [block]) (htapped : t.tapped = s.tapped ++ [tap])
    (hkeeps : s.app.KeepsNamesAt t.app)
    (hblock : ∀ screen row, block = .selectRow screen row →
      ∃ name, tap = some name ∧ t.app.nameAt screen row = some name) : t.Fresh := by
  intro position screen row hget
  rw [hqueue] at hget
  rw [htapped]
  rcases Nat.lt_or_ge position s.app.queue.length with hold | hnew
  · rw [List.getElem?_append_left hold] at hget
    obtain ⟨name, htap, hname⟩ := h position screen row hget
    rw [List.getElem?_append_left (haligned ▸ hold)]
    exact ⟨name, htap, hkeeps screen row name hname⟩
  · rw [List.getElem?_append_right hnew] at hget
    obtain ⟨hzero, hget⟩ := List.getElem?_eq_some_iff.mp hget
    have hposition : position = s.tapped.length := by
      rw [haligned]
      simp only [List.length_singleton] at hzero
      omega
    obtain ⟨name, rfl, hname⟩ := hblock screen row (by simpa using hget)
    refine ⟨name, ?_, hname⟩
    rw [hposition, List.getElem?_append_right le_rfl, Nat.sub_self]
    rfl

omit [DataProviding π] in
/-- What is left of the queue stays fresh. -/
theorem Fresh.eraseIdx (h : s.Fresh) {position : Nat}
    (hqueue : t.app.queue = s.app.queue.eraseIdx position)
    (htapped : t.tapped = s.tapped.eraseIdx position) (hkeeps : s.app.KeepsNamesAt t.app) :
    t.Fresh := by
  intro position' screen row hget
  rw [hqueue, List.getElem?_eraseIdx] at hget
  rw [htapped, List.getElem?_eraseIdx]
  by_cases hbefore : position' < position
  · rw [if_pos hbefore] at hget ⊢
    obtain ⟨name, htap, hname⟩ := h position' screen row hget
    exact ⟨name, htap, hkeeps screen row name hname⟩
  · rw [if_neg hbefore] at hget ⊢
    obtain ⟨name, htap, hname⟩ := h (position' + 1) screen row hget
    exact ⟨name, htap, hkeeps screen row name hname⟩

omit [DataProviding π] in
theorem Fresh.of_eq (h : s.Fresh) (hqueue : t.app.queue = s.app.queue)
    (htapped : t.tapped = s.tapped) (hkeeps : s.app.KeepsNamesAt t.app) : t.Fresh := by
  intro position screen row hget
  rw [hqueue] at hget
  obtain ⟨name, htap, hname⟩ := h position screen row hget
  exact ⟨name, htapped ▸ htap, hkeeps screen row name hname⟩

/-- Every step but a deletion keeps the pending blocks fresh. -/
theorem Fresh.step (h : s.Fresh) (haligned : s.Aligned)
    (hne : ∀ deleted write, event ≠ .players (.commitDelete deleted write))
    (ht : s.step count event = .ok t) : t.Fresh := by
  obtain ⟨happ, htapped⟩ := step_eq_ok ht
  have hqueue := App.queue_of_step happ
  have hkeeps := App.keepsNamesAt_of_step hne happ
  cases event with
  | stats e => exact h.of_eq hqueue htapped hkeeps
  | changePlayerTapped =>
    simp only [App.queueAfter] at hqueue
    simp only [tappedAfter] at htapped
    by_cases hnone : s.app.presented = none
    · rw [if_pos hnone] at hqueue htapped
      apply h.append haligned hqueue htapped hkeeps
      intro screen row hblock
      cases hblock
    · rw [if_neg hnone] at hqueue htapped
      exact h.of_eq hqueue htapped hkeeps
  | players e => exact h.of_eq hqueue htapped hkeeps
  | didSelectRow row =>
    simp only [App.queueAfter] at hqueue
    simp only [tappedAfter] at htapped
    rcases htop : s.app.top with _ | ⟨screen, vc⟩
    · rw [htop] at hqueue htapped
      exact h.of_eq hqueue htapped hkeeps
    · rw [htop] at hqueue htapped
      simp only at hqueue htapped
      by_cases hrow : row < vc.players.length
      · rw [if_pos hrow] at hqueue htapped
        apply h.append haligned hqueue htapped hkeeps
        intro screen' row' hblock
        cases hblock
        have hname := App.nameAt_of_screens (App.screens_of_top htop) row
        rw [List.getElem?_eq_getElem hrow] at hname
        exact ⟨_, hname, hkeeps screen row _ hname⟩
      · rw [if_neg hrow] at hqueue htapped
        exact h.of_eq hqueue htapped hkeeps
  | runBlock position obeyed => exact h.eraseIdx hqueue htapped hkeeps

omit [DataProviding π] in
theorem fresh_iff : s.Fresh ↔ ∀ event, s.SelectsTapped event := by
  constructor
  · rintro h event position obeyed screen row rfl hget
    exact h position screen row hget
  · intro h position screen row hget
    exact h (.runBlock position true) position true screen row rfl hget

/-- A deletion keeps the pending blocks fresh exactly when it leaves them the names at
    their rows. -/
theorem Fresh.deletion_iff (h : s.Fresh) {deleted : Nat} {write : Write}
    (ht : s.step count (.players (.commitDelete deleted write)) = .ok t) :
    t.Fresh ↔ s.KeepsRows (.players (.commitDelete deleted write)) := by
  obtain ⟨happ, htapped⟩ := step_eq_ok ht
  have hqueue : t.app.queue = s.app.queue := App.queue_of_step happ
  replace htapped : t.tapped = s.tapped := htapped
  constructor
  · rintro hfresh deleted' write' screen heq hpresented hrow row hmem hle
    cases heq
    obtain ⟨vc, hscreen, -⟩ := Option.bind_eq_some_iff.mp (Option.eq_some_of_isSome hrow)
    have htop : s.app.top = some (screen, vc) := App.top_eq_some.mpr ⟨hpresented, hscreen⟩
    obtain ⟨position, hget⟩ := List.mem_iff_getElem?.mp hmem
    obtain ⟨name, htap, hname⟩ := h position screen row hget
    obtain ⟨name', htap', hname'⟩ := hfresh position screen row (hqueue ▸ hget)
    rw [htapped, htap, Option.some.injEq, Option.some.injEq] at htap'
    subst htap'
    rw [App.nameAt_of_deletion htop happ, if_pos ⟨rfl, hle⟩] at hname'
    rw [hname, hname']
  · intro hkeeps position screen row hget
    rw [hqueue] at hget
    obtain ⟨name, htap, hname⟩ := h position screen row hget
    refine ⟨name, htapped ▸ htap, ?_⟩
    rcases htop : s.app.top with _ | ⟨shown, vc⟩
    · -- no players screen is presented, and nothing is deleted
      have hsame : t.app = s.app := by
        simp only [App.step, htop] at happ
        exact (Except.ok.inj happ).symm
      rw [hsame]
      exact hname
    · rw [App.nameAt_of_deletion htop happ]
      by_cases hmoved : screen = shown ∧ deleted ≤ row
      · rw [if_pos hmoved]
        obtain ⟨rfl, hle⟩ := hmoved
        have hscreen := App.screens_of_top htop
        rw [App.nameAt_of_screens hscreen, Option.map_eq_some_iff] at hname
        obtain ⟨player, hplayer, rfl⟩ := hname
        obtain ⟨hlength, -⟩ := List.getElem?_eq_some_iff.mp hplayer
        have hdeleted : (s.app.nameAt screen deleted).isSome = true := by
          rw [App.nameAt_of_screens hscreen, List.getElem?_eq_getElem (by omega)]
          rfl
        rw [hkeeps deleted write screen rfl (App.presented_of_top htop) hdeleted row
          (List.mem_of_getElem? hget) hle, App.nameAt_of_screens hscreen, hplayer]
        rfl
      · rw [if_neg hmoved]
        exact hname

omit [DataProviding π] in
/-- Only a deletion can fail to keep the rows. -/
theorem exists_deletion_of_not_keepsRows (h : ¬ s.KeepsRows event) :
    ∃ deleted write screen vc, event = .players (.commitDelete deleted write) ∧
      s.app.top = some (screen, vc) ∧ deleted < vc.players.length := by
  simp only [KeepsRows, not_forall] at h
  obtain ⟨deleted, write, screen, rfl, hpresented, hrow, -⟩ := h
  obtain ⟨vc, hscreen, hname⟩ := Option.bind_eq_some_iff.mp (Option.eq_some_of_isSome hrow)
  obtain ⟨player, hplayer, -⟩ := Option.map_eq_some_iff.mp hname
  obtain ⟨hlength, -⟩ := List.getElem?_eq_some_iff.mp hplayer
  exact ⟨deleted, write, screen, vc, rfl, App.top_eq_some.mpr ⟨hpresented, hscreen⟩, hlength⟩

theorem Fresh.step_iff (h : s.Fresh) (haligned : s.Aligned) (ht : s.step count event = .ok t) :
    t.Fresh ↔ s.KeepsRows event := by
  by_cases hdeletion : ∃ deleted write, event = .players (.commitDelete deleted write)
  · obtain ⟨deleted, write, rfl⟩ := hdeletion
    exact h.deletion_iff ht
  · have hne : ∀ deleted write, event ≠ .players (.commitDelete deleted write) := by
      intro deleted write heq
      exact hdeletion ⟨deleted, write, heq⟩
    refine ⟨?_, fun _ => h.step haligned hne ht⟩
    intro _ deleted write screen heq
    exact absurd heq (hne deleted write)

/-- The names kept beside the queue change nothing in the app. -/
theorem run_agree_app (count : String → Nat) (s : TappedApp π) (events : List AppEvent) :
    Agree (fun s' app => s'.app = app) (run (step count) s events)
      (run (App.step count) s.app events) := by
  apply run_agree
  · rintro s' app event rfl
    unfold step
    rcases s'.app.step count event with trap | app'
    · rfl
    · rfl
  · rfl

/-! ### Whole runs -/

theorem exists_step_of_not_keepsRows [LawfulProvider π]
    (hready : LawfulProvider.Ready s.app.provider) (h : ¬ s.KeepsRows event) :
    ∃ t, s.step count event = .ok t := by
  obtain ⟨deleted, write, screen, vc, rfl, htop, hlength⟩ := exists_deletion_of_not_keepsRows h
  obtain ⟨provider', reply, hdelete, -, -⟩ := PlayersViewController.commitDelete_eq hready
    (List.getElem?_eq_getElem hlength) write
  have hhandle : vc.handle count s.app.provider (.commitDelete deleted write) =
      .ok (vc.removeRow deleted reply, provider') := (if_pos hlength).trans hdelete
  unfold step
  simp only [App.step, htop, hhandle]
  exact ⟨_, rfl⟩

/-- **When a selection block finds the player that was tapped.**  In every state a run
    from launch reaches, any pending block that runs next, the first of the queue as
    any other, finds its row and passes on the name that was shown there when it was
    tapped, exactly when no deletion of the run moves another name, or nothing, up to
    the row of a pending block.  Then each block the run executes does so. -/
theorem selectsTapped_iff (count : String → Nat) (realm : Realm) (hready : realm.Ready)
    (events : List AppEvent) :
    (AllStates (step count) (fun s => ∀ event, s.SelectsTapped event) (launch realm) events ↔
      AllSteps (step count) KeepsRows (launch realm) events) ∧
    (AllSteps (step count) KeepsRows (launch realm) events →
      AllSteps (step count) SelectsTapped (launch realm) events) := by
  have hlaunch : (launch realm).Fresh := by
    intro position screen row hget
    rcases position with _ | position
    · cases hget
    · cases hget
  have hready' : LawfulProvider.Ready (launch realm).app.provider := hready
  have hinvariant : ∀ (s : TappedApp Realm) e t, s.Aligned ∧ LawfulProvider.Ready s.app.provider →
      step count s e = .ok t → t.Aligned ∧ LawfulProvider.Ready t.app.provider := by
    intro s e t h ht
    obtain ⟨happ, -⟩ := step_eq_ok ht
    exact ⟨h.1.step ht, (App.did_of_step h.2 happ).ready h.2⟩
  have hfresh : (fun s : TappedApp Realm => ∀ event, s.SelectsTapped event) = Fresh := by
    funext s
    exact propext fresh_iff.symm
  constructor
  · rw [hfresh]
    apply allStates_iff_allSteps hinvariant
    · intro s e t h hs ht
      exact hs.step_iff h.1 ht
    · intro s e h _ hnot
      exact exists_step_of_not_keepsRows h.2 hnot
    · exact ⟨rfl, hready'⟩
    · exact hlaunch
  · intro hall
    have hstep : ∀ (s : TappedApp Realm) e t, s.Fresh ∧ s.Aligned → s.KeepsRows e →
        step count s e = .ok t → t.Fresh ∧ t.Aligned := by
      intro s e t h hkeeps ht
      exact ⟨(h.1.step_iff h.2 ht).mpr hkeeps, h.2.step ht⟩
    apply AllSteps.mono hstep _ ⟨hlaunch, rfl⟩ hall
    intro s e h _
    exact fresh_iff.mp h.1 e

/-- Two players are added, and the first row is tapped and then deleted. -/
def tapsThenDeletes : List AppEvent :=
  [.runBlock 0 true, .players (.type "abc"), .players (.tapOnSave .succeeds),
    .players .addPlayerButtonTapped, .players (.type "abcd"), .players (.tapOnSave .succeeds),
    .didSelectRow 0, .players (.commitDelete 0 .succeeds)]

theorem selectsTapped_iff_tapsThenDeletes :
    (AllStates (step String.length) (fun s => ∀ event, s.SelectsTapped event)
        (launch (Realm.opened Group.empty)) tapsThenDeletes ↔
      AllSteps (step String.length) KeepsRows (launch (Realm.opened Group.empty))
        tapsThenDeletes) ∧
    (AllSteps (step String.length) KeepsRows (launch (Realm.opened Group.empty))
        tapsThenDeletes →
      AllSteps (step String.length) SelectsTapped (launch (Realm.opened Group.empty))
        tapsThenDeletes) :=
  selectsTapped_iff String.length _ Realm.ready_empty _

/-- The block passes on the name of the player below; and when the deleted row was the
    last, it finds no row and traps. -/
theorem selectsTapped_counterexample :
    (∃ s, run (step String.length) (launch (Realm.opened Group.empty)) tapsThenDeletes = .ok s ∧
      s.app.queue = [.selectRow 0 0] ∧ s.tapped = [some "abc"] ∧
      s.app.nameAt 0 0 = some "abcd") ∧
    (∃ s, run (step String.length) (launch (Realm.opened Group.empty))
        (tapsThenDeletes ++ [.runBlock 0 true]) = .ok s ∧
      s.app.stats.player = some ⟨"abcd", .human, .empty⟩) ∧
    run (step String.length) (launch (Realm.opened Group.empty))
        (tapsThenDeletes ++ [.runBlock 0 false, .didSelectRow 0,
          .players (.commitDelete 0 .succeeds), .runBlock 0 true]) = .error .indexOutOfRange ∧
    ¬ ∀ (realm : Realm) (events : List AppEvent), realm.Ready →
        (∀ position obeyed, .runBlock position obeyed ∈ events → position = 0) →
        AllSteps (step String.length) SelectsTapped (launch realm) events := by
  have hreached : ∃ s, run (step String.length) (launch (Realm.opened Group.empty))
      tapsThenDeletes = .ok s ∧ s.app.queue = [.selectRow 0 0] ∧ s.tapped = [some "abc"] ∧
        s.app.nameAt 0 0 = some "abcd" :=
    ⟨_, rfl, rfl, rfl, rfl⟩
  refine ⟨hreached, ⟨_, rfl, rfl⟩, by rfl, ?_⟩
  intro h
  obtain ⟨s, hrun, hqueue, htapped, hname⟩ := hreached
  have hall := h (Realm.opened Group.empty) (tapsThenDeletes ++ [.runBlock 0 true])
    Realm.ready_empty (by simp [tapsThenDeletes])
  obtain ⟨name, htap, hname'⟩ := hall.at hrun 0 true 0 0 rfl (by rw [hqueue]; rfl)
  rw [htapped] at htap
  rw [hname] at hname'
  cases htap
  exact absurd hname' (by decide)

end TappedApp

end W3Stats

import W3Stats.PlayersViewController
import W3Stats.RealmRefinesMap

/-!
# The names the form submits

The form keeps the name typed last and its enabled button over a save, and
nothing compares the name with those stored.  A history kept beside the screen,
of the texts typed and of the outcomes of the writes, tells the name a tap on
Save submits and the names stored at that time; the app survives exactly while
these differ.
-/

namespace W3Stats

open StepMachine

/-! ### What the events say about names -/

structure NameHistory where
  lastTyped : Option String
  formIsOpen : Bool
  /-- The names in the table. -/
  rows : List String
  stored : Finset String

namespace NameHistory

variable (count : String → Nat)

/-- The name a tap on Save submits, if the form takes the tap. -/
def submitted (history : NameHistory) : Option String :=
  if history.formIsOpen then history.lastTyped.filter fun name => count name ≥ 3 else none

def next (history : NameHistory) : PlayersEvent → NameHistory
  | .type text =>
      if history.formIsOpen then { history with lastTyped := some text } else history
  | .didSelectRace _ => history
  | .tapOnSave write =>
      match history.submitted count with
      | none => history
      | some name =>
          { history with
            formIsOpen := false
            rows := history.rows ++ [name]
            stored := write.choose history.stored (insert name history.stored) }
  | .addPlayerButtonTapped => { history with formIsOpen := true }
  | .tappedOnBackground =>
      if history.rows = [] then history else { history with formIsOpen := false }
  | .commitDelete row write =>
      match history.rows[row]? with
      | none => history
      | some name =>
          { history with
            rows := history.rows.eraseIdx row
            stored := write.choose history.stored (history.stored.erase name) }
  | .unblurCompleted => history

/-- A tap on Save that the form takes submits a name that is not stored. -/
def SubmitsNewName (history : NameHistory) (event : PlayersEvent) : Prop :=
  ∀ write, event = .tapOnSave write →
    ∀ name, history.submitted count = some name → name ∉ history.stored

end NameHistory

/-! ### The screen follows the history -/

section Follows

variable {π : Type} [DataProviding π] [LawfulProvider π]

structure Follows (count : String → Nat) (s : PlayersViewController × π)
    (history : NameHistory) : Prop where
  ready : LawfulProvider.Ready s.2
  isOpen : s.1.form.IsOpen ↔ history.formIsOpen = true
  rows : s.1.players.map Player.name = history.rows
  stored : ∀ name, name ∈ history.stored ↔ name ∈ LawfulProvider.contents s.2
  typed : match history.lastTyped with
    | none => s.1.addPlayerView.saveButtonIsEnabled = false
    | some name => s.1.addPlayerView.playerResult.name = name ∧
        s.1.addPlayerView.saveButtonIsEnabled = AddPlayerView.isCorrectName count name

variable {count : String → Nat} {s : PlayersViewController × π} {history : NameHistory}

/-- The form takes a tap on Save exactly when the history has a name to submit, and
    then that is the name it submits. -/
theorem Follows.submitted (h : Follows count s history) :
    (s.1.form.IsOpen ∧ s.1.addPlayerView.saveButtonIsEnabled = true ∧
        history.submitted count = some s.1.addPlayerView.playerResult.name) ∨
      (¬ (s.1.form.IsOpen ∧ s.1.addPlayerView.saveButtonIsEnabled = true) ∧
        history.submitted count = none) := by
  have htyped := h.typed
  unfold NameHistory.submitted
  by_cases hopen : history.formIsOpen = true
  · rw [if_pos hopen]
    rcases hlast : history.lastTyped with _ | name
    · rw [hlast] at htyped
      right
      refine ⟨fun hboth => ?_, rfl⟩
      rw [htyped] at hboth
      exact absurd hboth.2 Bool.false_ne_true
    · rw [hlast] at htyped
      obtain ⟨hname, henabled⟩ := htyped
      by_cases hcount : count name ≥ 3
      · left
        refine ⟨h.isOpen.mpr hopen, ?_, ?_⟩
        · rw [henabled, AddPlayerView.isCorrectName, if_pos hcount]
        · rw [hname, Option.filter_some, if_pos (by simpa using hcount)]
      · right
        refine ⟨fun hboth => ?_, ?_⟩
        · rw [henabled, AddPlayerView.isCorrectName, if_neg hcount] at hboth
          exact absurd hboth.2 Bool.false_ne_true
        · rw [Option.filter_some, if_neg (by simpa using hcount)]
  · rw [if_neg hopen]
    right
    exact ⟨fun hboth => hopen (h.isOpen.mp hboth.1), rfl⟩

/-- A step that leaves the table, the store and the typed name alone follows any
    change of the form. -/
theorem Follows.form (h : Follows count s history) {form : SlideUpForm} {isOpen : Bool}
    (hform : form.IsOpen ↔ isOpen = true) :
    Follows count ({ s.1 with form }, s.2) { history with formIsOpen := isOpen } :=
  ⟨h.ready, hform, h.rows, h.stored, h.typed⟩

theorem mem_choose_iff {stored stored' : Finset String} {map map' : PlayerMap}
    (h : ∀ name, name ∈ stored ↔ name ∈ map) (h' : ∀ name, name ∈ stored' ↔ name ∈ map')
    (write : Write) (name : String) :
    name ∈ write.choose stored stored' ↔ name ∈ write.choose map map' := by
  cases write with
  | succeeds => exact h' name
  | fails => exact h name

/-- While the submitted name is new, the screen goes on and follows the history. -/
theorem Follows.handle (h : Follows count s history) {event : PlayersEvent}
    (hnew : history.SubmitsNewName count event) :
    ∃ t, s.1.handle count s.2 event = .ok t ∧ Follows count t (history.next count event) := by
  obtain ⟨vc, provider⟩ := s
  cases event with
  | type text =>
    by_cases hopen : vc.form.IsOpen
    · refine ⟨_, if_pos hopen, ?_⟩
      simp only [NameHistory.next, if_pos (h.isOpen.mp hopen)]
      exact ⟨h.ready, h.isOpen, h.rows, h.stored, rfl, rfl⟩
    · refine ⟨_, if_neg hopen, ?_⟩
      have hclosed : ¬ history.formIsOpen = true := fun hc => hopen (h.isOpen.mpr hc)
      simp only [NameHistory.next, if_neg hclosed]
      exact h
  | didSelectRace row =>
    by_cases hopen : vc.form.IsOpen
    · exact ⟨_, if_pos hopen, h.ready, h.isOpen, h.rows, h.stored, h.typed⟩
    · exact ⟨_, if_neg hopen, h⟩
  | tapOnSave write =>
    rcases h.submitted with ⟨hopen, henabled, hname⟩ | ⟨hrefused, hnone⟩
    · have hfresh : vc.addPlayerView.playerResult.name ∉ LawfulProvider.contents provider := by
        intro hmem
        exact hnew write rfl _ hname ((h.stored _).mpr hmem)
      obtain ⟨vc', provider', hsave, hplayers, hform, hview, hready', hcontents⟩ :=
        PlayersViewController.tapOnSave_fresh h.ready hfresh write
      refine ⟨(vc', provider'), (if_pos ⟨hopen, henabled⟩).trans hsave, ?_⟩
      simp only [NameHistory.next, hname]
      refine ⟨hready', ?_, ?_, ?_, ?_⟩
      · rw [hform]
        simp
      · rw [hplayers, List.map_append, h.rows]
        rfl
      · intro name
        rw [hcontents]
        refine mem_choose_iff h.stored ?_ write name
        intro name
        rw [Finset.mem_insert, h.stored, Finmap.mem_insert]
      · rw [hview]
        exact h.typed
    · refine ⟨_, if_neg hrefused, ?_⟩
      simp only [NameHistory.next, hnone]
      exact h
  | addPlayerButtonTapped =>
    exact ⟨_, rfl, h.form (by simp)⟩
  | tappedOnBackground =>
    have hempty : vc.players = [] ↔ history.rows = [] := by
      rw [← h.rows, List.map_eq_nil_iff]
    refine ⟨_, rfl, ?_⟩
    by_cases hrows : vc.players = []
    · simp only [NameHistory.next, if_pos (hempty.mp hrows),
        PlayersViewController.tappedOnBackground, hrows]
      exact h
    · have hne : history.rows ≠ [] := fun hc => hrows (hempty.mpr hc)
      have hvc : vc.tappedOnBackground = vc.hideAddPlayerView := by
        unfold PlayersViewController.tappedOnBackground
        rw [if_pos (by simpa using hrows)]
      simp only [NameHistory.next, if_neg hne, hvc]
      exact h.form (by simp)
  | commitDelete row write =>
    by_cases hrow : row < vc.players.length
    · have hget : vc.players[row]? = some (vc.players.get ⟨row, hrow⟩) :=
        List.getElem?_eq_getElem hrow
      have hname : history.rows[row]? = some (vc.players.get ⟨row, hrow⟩).name := by
        rw [← h.rows, List.getElem?_map, hget]
        rfl
      obtain ⟨provider', reply, hdelete, hready', hcontents⟩ :=
        PlayersViewController.commitDelete_eq h.ready hget write
      refine ⟨_, (if_pos hrow).trans hdelete, ?_⟩
      simp only [NameHistory.next, hname]
      refine ⟨hready', ?_, ?_, ?_, ?_⟩
      · simp only [PlayersViewController.form_removeRow]
        exact h.isOpen
      · simp only [PlayersViewController.players_removeRow]
        rw [← h.rows, List.eraseIdx_map]
      · intro name
        rw [hcontents]
        refine mem_choose_iff h.stored ?_ write name
        intro name
        rw [Finset.mem_erase, h.stored, Finmap.mem_erase]
      · simp only [PlayersViewController.addPlayerView_removeRow]
        exact h.typed
    · have hname : history.rows[row]? = none := by
        rw [← h.rows, List.getElem?_eq_none_iff, List.length_map]
        exact Nat.le_of_not_lt hrow
      refine ⟨_, if_neg hrow, ?_⟩
      simp only [NameHistory.next, hname]
      exact h
  | unblurCompleted =>
    exact ⟨_, rfl, h.form (by rw [SlideUpForm.isOpen_unblurCompleted]; exact h.isOpen)⟩

/-- A submitted name that is stored raises. -/
theorem Follows.handle_existing (h : Follows count s history) {event : PlayersEvent}
    (hold : ¬ history.SubmitsNewName count event) :
    ∃ name, s.1.handle count s.2 event =
      .error (.exception (.existingPrimaryKey "PlayerObject" name)) := by
  simp only [NameHistory.SubmitsNewName, not_forall, not_not] at hold
  obtain ⟨write, rfl, name, hname, hstored⟩ := hold
  rcases h.submitted with ⟨hopen, henabled, hsubmitted⟩ | ⟨-, hnone⟩
  · rw [hsubmitted, Option.some.injEq] at hname
    have hmem : s.1.addPlayerView.playerResult.name ∈ LawfulProvider.contents s.2 := by
      rw [← h.stored, hname]
      exact hstored
    exact ⟨_, (if_pos ⟨hopen, henabled⟩).trans
      (PlayersViewController.tapOnSave_existing h.ready hmem write)⟩
  · rw [hnone] at hname
    cases hname

end Follows

/-! ### Whole runs -/

namespace PlayersViewController

/-- One event on the screen. -/
def step (count : String → Nat) (s : PlayersViewController × Realm) (event : PlayersEvent) :
    Except Trap (PlayersViewController × Realm) := s.1.handle count s.2 event

/-- The history when the screen is loaded. -/
def nameHistory (realm : Realm) : NameHistory where
  lastTyped := none
  formIsOpen := (RealmDataProvider.loadPlayers realm).isEmpty
  rows := (RealmDataProvider.loadPlayers realm).map Player.name
  stored := realm.contents.keys

theorem follows_viewDidLoad (count : String → Nat) {realm : Realm} (hready : realm.Ready) :
    Follows count (viewDidLoad realm, realm) (nameHistory realm) := by
  refine ⟨hready, isOpen_viewDidLoad realm,
    congrArg (List.map Player.name) (players_viewDidLoad realm), fun name => Finmap.mem_keys, ?_⟩
  show (viewDidLoad realm).addPlayerView.saveButtonIsEnabled = false
  rw [addPlayerView_viewDidLoad]
  rfl

/-- **When a tap on Save raises.**  From a screen just loaded over any store, a run
    of events raises no Objective-C exception exactly when each tap on Save that
    the form takes submits a name that is not stored at that time. -/
theorem run_ne_exception_iff (count : String → Nat) (realm : Realm) (hready : realm.Ready)
    (events : List PlayersEvent) :
    (∀ e : NSException,
        run (step count) (viewDidLoad realm, realm) events ≠ .error (.exception e)) ↔
      Along (NameHistory.next count) (NameHistory.SubmitsNewName count) (nameHistory realm)
        events := by
  have hgo : ∀ s history event, Follows count s history →
      NameHistory.SubmitsNewName count history event →
      ∃ t, step count s event = .ok t ∧ Follows count t (NameHistory.next count history event) :=
    fun s history event h hnew => h.handle hnew
  have hstop : ∀ s history event, Follows count s history →
      ¬ NameHistory.SubmitsNewName count history event →
      ∃ x, step count s event = .error x ∧
        ∃ name, x = .exception (.existingPrimaryKey "PlayerObject" name) := by
    intro s history event h hold
    obtain ⟨name, hname⟩ := h.handle_existing hold
    exact ⟨_, hname, name, rfl⟩
  have hcases := run_cases_of_history hgo hstop (follows_viewDidLoad count hready) events
  rcases hcases with ⟨hall, t, hrun⟩ | ⟨hnot, x, hrun, name, rfl⟩
  · rw [hrun]
    exact ⟨fun _ => hall, fun _ e => by simp⟩
  · rw [hrun]
    exact ⟨fun h => absurd rfl (h _), fun h => absurd h hnot⟩

theorem run_ne_exception_iff_empty :
    (∀ e : NSException, run (step String.length)
        (viewDidLoad (Realm.opened Group.empty), Realm.opened Group.empty)
        [.type "abc", .tapOnSave .succeeds] ≠ .error (.exception e)) ↔
      Along (NameHistory.next String.length) (NameHistory.SubmitsNewName String.length)
        (nameHistory (Realm.opened Group.empty)) [.type "abc", .tapOnSave .succeeds] :=
  run_ne_exception_iff String.length _ Realm.ready_empty _

/-- A second tap on Save, after the form was opened again, submits the name that the
    first one stored. -/
theorem run_ne_exception_counterexample :
    run (step String.length)
        (viewDidLoad (Realm.opened Group.empty), Realm.opened Group.empty)
        [.type "abc", .tapOnSave .succeeds, .addPlayerButtonTapped, .tapOnSave .succeeds] =
      .error (.exception (.existingPrimaryKey "PlayerObject" "abc")) ∧
    ¬ ∀ (realm : Realm) (events : List PlayersEvent) (e : NSException), realm.Ready →
        run (step String.length) (viewDidLoad realm, realm) events ≠ .error (.exception e) := by
  have hraises : run (step String.length)
      (viewDidLoad (Realm.opened Group.empty), Realm.opened Group.empty)
      [.type "abc", .tapOnSave .succeeds, .addPlayerButtonTapped, .tapOnSave .succeeds] =
        .error (.exception (.existingPrimaryKey "PlayerObject" "abc")) := by
    rfl
  exact ⟨hraises, fun h => h _ _ _ Realm.ready_empty hraises⟩

end PlayersViewController

end W3Stats

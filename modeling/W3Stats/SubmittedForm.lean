import W3Stats.SubmittedNames

/-!
# What the form shows and what it submits

The form keeps a name in its text field and in the player it submits, and what
allows the tap on Save in a third place.  An edit of the field sets all three; a
save clears the field alone, which sends no editing event.  So from a save to the
next edit the form submits a name it does not show.
-/

namespace W3Stats

open StepMachine

namespace AddPlayerView

/-- A tap on Save submits what the form shows, and is allowed as the name shown
    says. -/
structure ShowsSubmitted (count : String → Nat) (view : AddPlayerView) : Prop where
  name : view.playerResult.name = view.nameText.getD ""
  race : Race.allRaces[view.pickerRow]? = some view.playerResult.race
  enabled : view.saveButtonIsEnabled = true ↔ 3 ≤ count (view.nameText.getD "")

end AddPlayerView

/-! ### Saves and edits -/

structure FormHistory where
  names : NameHistory
  /-- A save has cleared the text field, and it has not been edited since. -/
  savedSinceTyped : Bool

def FormHistory.next (count : String → Nat) (history : FormHistory) (event : PlayersEvent) :
    FormHistory where
  names := history.names.next count event
  savedSinceTyped :=
    match event with
    | .type _ => if history.names.formIsOpen then false else history.savedSinceTyped
    | .tapOnSave _ =>
        if (history.names.submitted count).isSome then true else history.savedSinceTyped
    | _ => history.savedSinceTyped

/-! ### What an event does to the form -/

namespace PlayersViewController

variable {π : Type} [DataProviding π] {vc : PlayersViewController} {provider : π}
  {count : String → Nat}

/-- The form after an event. -/
def formAfter (count : String → Nat) (vc : PlayersViewController) : PlayersEvent → AddPlayerView
  | .type text =>
      if vc.form.IsOpen then vc.addPlayerView.type count text else vc.addPlayerView
  | .didSelectRace row =>
      if vc.form.IsOpen then vc.addPlayerView.didSelectRow row else vc.addPlayerView
  | .tapOnSave _ =>
      if vc.form.IsOpen ∧ vc.addPlayerView.saveButtonIsEnabled then
        { vc.addPlayerView with nameText := none }
      else vc.addPlayerView
  | _ => vc.addPlayerView

theorem addPlayerView_screenAfter (count : String → Nat) (reply : Reply)
    (vc : PlayersViewController) (event : PlayersEvent) :
    (vc.screenAfter count reply event).addPlayerView = vc.formAfter count event := by
  cases event with
  | tappedOnBackground =>
    simp only [screenAfter, tappedOnBackground, formAfter]
    split <;> rfl
  | commitDelete row write =>
    simp only [screenAfter, formAfter]
    split
    · exact addPlayerView_removeRow row reply vc
    · rfl
  | addPlayerButtonTapped => rfl
  | unblurCompleted => rfl
  | _ =>
    simp only [screenAfter, formAfter]
    split <;> rfl

theorem addPlayerView_handle {event : PlayersEvent} {after : PlayersViewController × π}
    (h : vc.handle count provider event = .ok after) :
    after.1.addPlayerView = vc.formAfter count event := by
  obtain ⟨reply, hafter⟩ := screen_of_handle h
  rw [hafter]
  exact addPlayerView_screenAfter count reply vc event

end PlayersViewController

namespace NameHistory

variable {count : String → Nat} {history : NameHistory}

/-- Only an edit changes the text typed last. -/
theorem lastTyped_next (count : String → Nat) (history : NameHistory) (event : PlayersEvent) :
    (history.next count event).lastTyped =
      match event with
      | .type text => if history.formIsOpen then some text else history.lastTyped
      | _ => history.lastTyped := by
  cases event with
  | type text =>
    simp only [next]
    split <;> rfl
  | tapOnSave write =>
    simp only [next]
    split <;> rfl
  | tappedOnBackground =>
    simp only [next]
    split <;> rfl
  | commitDelete row write =>
    simp only [next]
    split <;> rfl
  | _ => rfl

theorem lastTyped_of_submitted {name : String} (h : history.submitted count = some name) :
    history.lastTyped = some name ∧ 3 ≤ count name := by
  unfold submitted at h
  split at h
  · rw [Option.filter_eq_some_iff] at h
    exact ⟨h.1, by simpa using h.2⟩
  · cases h

end NameHistory

/-! ### The form follows the history -/

section FollowsForm

variable {π : Type} [DataProviding π] [LawfulProvider π]

structure FollowsForm (count : String → Nat) (s : PlayersViewController × π)
    (history : FormHistory) : Prop where
  names : Follows count s history.names
  race : Race.allRaces[s.1.addPlayerView.pickerRow]? = some s.1.addPlayerView.playerResult.race
  name : s.1.addPlayerView.playerResult.name = history.names.lastTyped.getD ""
  shown : history.savedSinceTyped = false → s.1.addPlayerView.nameText = history.names.lastTyped
  cleared : history.savedSinceTyped = true → s.1.addPlayerView.nameText = none ∧
    ∃ name, history.names.lastTyped = some name ∧ 3 ≤ count name

variable {count : String → Nat} {s t : PlayersViewController × π} {history : FormHistory}

/-- An event that leaves the form and the saves alone. -/
theorem FollowsForm.of_eq (h : FollowsForm count s history) {next : FormHistory}
    (hnames : Follows count t next.names) (hview : t.1.addPlayerView = s.1.addPlayerView)
    (hlast : next.names.lastTyped = history.names.lastTyped)
    (hsaved : next.savedSinceTyped = history.savedSinceTyped) : FollowsForm count t next := by
  refine ⟨hnames, ?_, ?_, ?_, ?_⟩
  · rw [hview]
    exact h.race
  · rw [hview, hlast]
    exact h.name
  · rw [hview, hlast, hsaved]
    exact h.shown
  · rw [hview, hlast, hsaved]
    exact h.cleared

theorem FollowsForm.handle (h : FollowsForm count s history) {event : PlayersEvent}
    (ht : s.1.handle count s.2 event = .ok t) : FollowsForm count t (history.next count event) := by
  have hnames : Follows count t (history.names.next count event) := by
    by_cases hnew : history.names.SubmitsNewName count event
    · obtain ⟨t', ht', hfollows⟩ := h.names.handle hnew
      rw [ht] at ht'
      cases ht'
      exact hfollows
    · obtain ⟨name, herror⟩ := h.names.handle_existing hnew
      rw [ht] at herror
      cases herror
  have hview := PlayersViewController.addPlayerView_handle ht
  have hlast := NameHistory.lastTyped_next count history.names event
  cases event with
  | type text =>
    by_cases hopen : history.names.formIsOpen = true
    · simp only [PlayersViewController.formAfter, if_pos (h.names.isOpen.mpr hopen)] at hview
      simp only [if_pos hopen] at hlast
      have hsaved : (history.next count (.type text)).savedSinceTyped = false := by
        simp only [FormHistory.next, if_pos hopen]
      refine ⟨hnames, ?_, ?_, ?_, ?_⟩
      · rw [hview]
        exact h.race
      · rw [hview]
        show text = (history.names.next count (.type text)).lastTyped.getD ""
        rw [hlast]
        rfl
      · intro _
        rw [hview]
        exact hlast.symm
      · intro htrue
        rw [hsaved] at htrue
        cases htrue
    · have hclosed : ¬ s.1.form.IsOpen := fun hc => hopen (h.names.isOpen.mp hc)
      simp only [PlayersViewController.formAfter, if_neg hclosed] at hview
      simp only [if_neg hopen] at hlast
      refine h.of_eq hnames hview hlast ?_
      simp only [FormHistory.next, if_neg hopen]
  | didSelectRace row =>
    by_cases hopen : s.1.form.IsOpen
    · simp only [PlayersViewController.formAfter, if_pos hopen] at hview
      refine ⟨hnames, ?_, ?_, ?_, ?_⟩
      · rw [hview]
        exact List.getElem?_eq_getElem row.isLt
      · rw [hview]
        exact h.name
      · rw [hview]
        exact h.shown
      · rw [hview]
        exact h.cleared
    · simp only [PlayersViewController.formAfter, if_neg hopen] at hview
      exact h.of_eq hnames hview rfl rfl
  | tapOnSave write =>
    rcases h.names.submitted with ⟨hopen, henabled, hname⟩ | ⟨hrefused, hnone⟩
    · simp only [PlayersViewController.formAfter, if_pos (And.intro hopen henabled)] at hview
      have hsaved : (history.next count (.tapOnSave write)).savedSinceTyped = true := by
        simp only [FormHistory.next, hname]
        rfl
      refine ⟨hnames, ?_, ?_, ?_, ?_⟩
      · rw [hview]
        exact h.race
      · rw [hview]
        show s.1.addPlayerView.playerResult.name =
          (history.names.next count (.tapOnSave write)).lastTyped.getD ""
        rw [hlast]
        exact h.name
      · intro hfalse
        rw [hsaved] at hfalse
        cases hfalse
      · intro _
        refine ⟨by rw [hview], _, ?_, (NameHistory.lastTyped_of_submitted hname).2⟩
        exact hlast.trans (NameHistory.lastTyped_of_submitted hname).1
    · simp only [PlayersViewController.formAfter, if_neg hrefused] at hview
      refine h.of_eq hnames hview hlast ?_
      simp only [FormHistory.next, hnone]
      rfl
  | addPlayerButtonTapped => exact h.of_eq hnames hview hlast rfl
  | tappedOnBackground => exact h.of_eq hnames hview hlast rfl
  | commitDelete row write => exact h.of_eq hnames hview hlast rfl
  | unblurCompleted => exact h.of_eq hnames hview hlast rfl

/-- A name that was typed and saved is not the empty one shown. -/
theorem FollowsForm.name_eq_iff (h : FollowsForm count s history) (hempty : count "" = 0) :
    s.1.addPlayerView.playerResult.name = s.1.addPlayerView.nameText.getD "" ↔
      history.savedSinceTyped = false := by
  constructor
  · intro hname
    by_contra hsaved
    obtain ⟨hnone, name, hlast, hcount⟩ := h.cleared (by simpa using hsaved)
    rw [h.name, hnone, hlast] at hname
    have hnil : name = "" := hname
    rw [hnil, hempty] at hcount
    omega
  · intro hsaved
    rw [h.shown hsaved]
    exact h.name

theorem FollowsForm.showsSubmitted_iff (h : FollowsForm count s history) (hempty : count "" = 0) :
    s.1.addPlayerView.ShowsSubmitted count ↔ history.savedSinceTyped = false := by
  constructor
  · intro hshows
    exact (h.name_eq_iff hempty).mp hshows.name
  · intro hsaved
    refine ⟨(h.name_eq_iff hempty).mpr hsaved, h.race, ?_⟩
    have htyped := h.names.typed
    rw [h.shown hsaved]
    rcases hlast : history.names.lastTyped with _ | name
    · rw [hlast] at htyped
      simp [htyped, hempty]
    · rw [hlast] at htyped
      simp [htyped.2, AddPlayerView.isCorrectName]

end FollowsForm

/-! ### Whole runs -/

namespace PlayersViewController

def formHistory (realm : Realm) : FormHistory := ⟨nameHistory realm, false⟩

theorem followsForm_viewDidLoad (count : String → Nat) {realm : Realm} (hready : realm.Ready) :
    FollowsForm count (viewDidLoad realm, realm) (formHistory realm) := by
  have hview : (viewDidLoad realm).addPlayerView = .initial := addPlayerView_viewDidLoad realm
  refine ⟨follows_viewDidLoad count hready, ?_, ?_, ?_, ?_⟩
  · rw [hview]
    rfl
  · rw [hview]
    rfl
  · intro _
    rw [hview]
    rfl
  · intro hsaved
    cases hsaved

/-- **When the form shows what it submits.**  From a screen just loaded over any
    store, the name, the race and the button agree with what is shown in exactly the
    states where the text field has been edited since the last save, or nothing has
    been saved.  The race always agrees, and a player that is submitted always has a
    name of three characters, which is the name shown exactly in those states. -/
theorem form_shows_submitted_iff (count : String → Nat) (hempty : count "" = 0) (realm : Realm)
    (hready : realm.Ready) (events : List PlayersEvent) (t : PlayersViewController × Realm)
    (hrun : run (step count) (viewDidLoad realm, realm) events = .ok t) :
    (t.1.addPlayerView.ShowsSubmitted count ↔
      (events.foldl (FormHistory.next count) (formHistory realm)).savedSinceTyped = false) ∧
    Race.allRaces[t.1.addPlayerView.pickerRow]? = some t.1.addPlayerView.playerResult.race ∧
    (t.1.form.IsOpen ∧ t.1.addPlayerView.saveButtonIsEnabled = true →
      3 ≤ count t.1.addPlayerView.playerResult.name ∧
      (t.1.addPlayerView.playerResult.name = t.1.addPlayerView.nameText.getD "" ↔
        (events.foldl (FormHistory.next count) (formHistory realm)).savedSinceTyped = false)) := by
  have hstep : ∀ s g e u, FollowsForm count s g → step count s e = .ok u →
      FollowsForm count u (FormHistory.next count g e) := by
    intro s g e u h hu
    exact h.handle hu
  have hfollows := run_foldl hstep (followsForm_viewDidLoad count hready) hrun
  refine ⟨hfollows.showsSubmitted_iff hempty, hfollows.race, ?_⟩
  rintro haccepted
  refine ⟨?_, hfollows.name_eq_iff hempty⟩
  rcases hfollows.names.submitted with ⟨-, -, hname⟩ | ⟨hrefused, -⟩
  · exact (NameHistory.lastTyped_of_submitted hname).2
  · exact absurd haccepted hrefused

theorem form_shows_submitted_iff_typed :
    ∃ t, run (step String.length) (viewDidLoad (Realm.opened Group.empty),
        Realm.opened Group.empty) [.type "abc"] = .ok t ∧
      (t.1.addPlayerView.ShowsSubmitted String.length ↔
        ([PlayersEvent.type "abc"].foldl (FormHistory.next String.length)
          (formHistory (Realm.opened Group.empty))).savedSinceTyped = false) :=
  ⟨_, rfl, (form_shows_submitted_iff String.length rfl _ Realm.ready_empty [.type "abc"] _ rfl).1⟩

/-- After a save the form, opened again, still submits the saved name from an empty
    field. -/
theorem form_shows_submitted_counterexample :
    (∃ t, run (step String.length) (viewDidLoad (Realm.opened Group.empty),
          Realm.opened Group.empty)
        [.type "abc", .tapOnSave .succeeds, .addPlayerButtonTapped] = .ok t ∧
      t.1.form.IsOpen ∧ t.1.addPlayerView = ⟨none, 1, true, ⟨"abc", .human⟩⟩) ∧
    ¬ ∀ (realm : Realm) (events : List PlayersEvent) (t : PlayersViewController × Realm),
        realm.Ready → run (step String.length) (viewDidLoad realm, realm) events = .ok t →
        t.1.addPlayerView.ShowsSubmitted String.length := by
  have hopened : ∃ t, run (step String.length) (viewDidLoad (Realm.opened Group.empty),
        Realm.opened Group.empty)
      [.type "abc", .tapOnSave .succeeds, .addPlayerButtonTapped] = .ok t ∧
      t.1.form.IsOpen ∧ t.1.addPlayerView = ⟨none, 1, true, ⟨"abc", .human⟩⟩ :=
    ⟨_, rfl, by decide, rfl⟩
  refine ⟨hopened, ?_⟩
  intro h
  obtain ⟨t, hrun, -, hview⟩ := hopened
  have hname := (h _ _ t Realm.ready_empty hrun).name
  rw [hview] at hname
  exact absurd hname (by decide)

end PlayersViewController

end W3Stats

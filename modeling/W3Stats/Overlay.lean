import W3Stats.App

/-!
# The overlay behind the forms

Opening a form shows the overlay at once; closing it starts an animation whose
completion hides the overlay, whatever has happened to the form since.  So the
overlay of a form that was opened again is hidden by the completion of the closing
before, and that is the only way it comes apart from its form.  A players screen that
is not presented any more is left as it is, and gets no completions.
-/

namespace W3Stats

open StepMachine

namespace SlideUpForm

/-- A closed form with no completion to come has no overlay. -/
def HiddenWhenClosed (form : SlideUpForm) : Prop :=
  ¬ form.IsOpen → form.pendingUnblurs = 0 → form.blurIsHidden = true

/-- And an open form has its overlay. -/
structure Covered (form : SlideUpForm) : Prop where
  shown : form.IsOpen → form.blurIsHidden = false
  hidden : form.HiddenWhenClosed

/-- A completion that runs now finds no form opened since its closing. -/
def CompletesClosed (form : SlideUpForm) : Prop := form.IsOpen → form.pendingUnblurs = 0

instance (form : SlideUpForm) : Decidable form.CompletesClosed := by
  unfold CompletesClosed
  infer_instance

/-- What a handler other than the completion does to the form. -/
inductive Slides (constant : Nat) (form : SlideUpForm) : SlideUpForm → Prop
  | stays : Slides constant form form
  | slideUp : Slides constant form (form.slideUp constant)
  | slideDown : Slides constant form form.slideDown

variable {constant : Nat} {form form' : SlideUpForm}

theorem HiddenWhenClosed.slides (h : form.HiddenWhenClosed) (hconstant : constant ≠ 0)
    (hslides : form.Slides constant form') : form'.HiddenWhenClosed := by
  cases hslides with
  | stays => exact h
  | slideUp =>
    intro hclosed
    exact absurd ((isOpen_slideUp form).mpr hconstant) hclosed
  | slideDown =>
    intro _ hpending
    exact absurd hpending (Nat.succ_ne_zero _)

theorem HiddenWhenClosed.unblurCompleted (h : form.HiddenWhenClosed) :
    form.unblurCompleted.HiddenWhenClosed := by
  unfold SlideUpForm.unblurCompleted
  split
  · exact h
  · intro _ _
    rfl

theorem covered_initial : initial.Covered := by
  refine ⟨?_, fun _ _ => rfl⟩
  intro hopen
  exact absurd rfl hopen

theorem Covered.slides (h : form.Covered) (hconstant : constant ≠ 0)
    (hslides : form.Slides constant form') : form'.Covered := by
  refine ⟨?_, h.hidden.slides hconstant hslides⟩
  cases hslides with
  | stays => exact h.shown
  | slideUp =>
    intro _
    rfl
  | slideDown =>
    intro hopen
    exact absurd hopen (not_isOpen_slideDown form)

/-- A completion takes the overlay from a form that is open again, and only then. -/
theorem Covered.unblurCompleted_iff (h : form.Covered) :
    form.unblurCompleted.Covered ↔ form.CompletesClosed := by
  by_cases hpending : form.pendingUnblurs = 0
  · have heq : form.unblurCompleted = form := by
      rw [unblurCompleted, if_pos hpending]
    rw [heq]
    exact ⟨fun _ _ => hpending, fun _ => h⟩
  · have hhidden : form.unblurCompleted.blurIsHidden = true := by
      rw [unblurCompleted, if_neg hpending]
    constructor
    · intro hcovered hopen
      have hshown := hcovered.shown ((isOpen_unblurCompleted form).mpr hopen)
      rw [hhidden] at hshown
      cases hshown
    · intro hcloses
      refine ⟨?_, h.hidden.unblurCompleted⟩
      intro hopen
      exact absurd (hcloses ((isOpen_unblurCompleted form).mp hopen)) hpending

end SlideUpForm

/-! ### The forms of the two screens -/

open SlideUpForm (Slides)

namespace StatsViewController

variable {π : Type} [DataProviding π] {vc : StatsViewController} {provider : π}

theorem form_showStats {vc' : StatsViewController} (h : vc.showStats = .ok vc') :
    vc'.form = vc.form := by
  unfold showStats at h
  split at h
  · cases h
    rfl
  · obtain ⟨display, -, h⟩ := bind_eq_ok.mp h
    cases h
    rfl

theorem form_updateAndShow {player : Player} {write : Write}
    {after : StatsViewController × π}
    (h : vc.updateAndShow player write provider = .ok after) : after.1.form = vc.form := by
  unfold updateAndShow at h
  obtain ⟨⟨provider', reply⟩, -, h⟩ := bind_eq_ok.mp h
  obtain ⟨vc', hshow, h⟩ := bind_eq_ok.mp h
  cases h
  rw [form_showStats hshow]
  cases reply <;> rfl

theorem slides_handle {event : StatsEvent} (hne : event ≠ .unblurCompleted)
    {after : StatsViewController × π} (h : vc.handle provider event = .ok after) :
    vc.form.Slides 500 after.1.form := by
  cases event with
  | addNewMatchResult matchResult write =>
    rcases hplayer : vc.player with _ | player
    · simp only [handle, addNewMatchResult, hplayer] at h
      cases h
      exact .stays
    · rw [handle, addNewMatchResult_of_some hplayer] at h
      obtain ⟨value, -, h⟩ := bind_eq_ok.mp h
      obtain ⟨shown, hshown, h⟩ := bind_eq_ok.mp h
      cases h
      show vc.form.Slides 500 shown.1.form.slideDown
      rw [form_updateAndShow hshown]
      exact .slideDown
  | saveNewValue newValue race matchResult write =>
    rcases hplayer : vc.player with _ | player
    · simp only [handle, saveNewValue, hplayer] at h
      cases h
      exact .stays
    · rw [handle, saveNewValue_of_some hplayer] at h
      rw [form_updateAndShow h]
      exact .stays
  | addMatchButtonTapped =>
    cases h
    exact .slideUp
  | tappedOnBackground =>
    cases h
    exact .slideDown
  | unblurCompleted => exact absurd rfl hne
  | checkmarkCompleted =>
    cases h
    unfold checkmarkCompleted
    split <;> exact .stays

theorem form_updateStatsForPlayer {playerName : String} {vc' : StatsViewController}
    (h : vc.updateStatsForPlayer playerName provider = .ok vc') : vc'.form = vc.form := by
  unfold updateStatsForPlayer at h
  rw [form_showStats h]

end StatsViewController

namespace PlayersViewController

variable {π : Type} [DataProviding π] {vc : PlayersViewController} {provider : π}

theorem slides_viewDidLoad (provider : π) :
    SlideUpForm.initial.Slides 436 (viewDidLoad provider).form := by
  unfold viewDidLoad
  simp only
  split
  · exact .slideUp
  · exact .stays

theorem slides_screenAfter (count : String → Nat) (reply : Reply) {event : PlayersEvent}
    (hne : event ≠ .unblurCompleted) :
    vc.form.Slides 436 (vc.screenAfter count reply event).form := by
  cases event with
  | tapOnSave write =>
    simp only [screenAfter]
    split
    · simp only [saved, form_listNewPlayer]
      exact .slideDown
    · exact .stays
  | addPlayerButtonTapped => exact .slideUp
  | tappedOnBackground =>
    simp only [screenAfter, tappedOnBackground]
    split
    · exact .slideDown
    · exact .stays
  | commitDelete row write =>
    simp only [screenAfter]
    split
    · rw [form_removeRow]
      exact .stays
    · exact .stays
  | unblurCompleted => exact absurd rfl hne
  | _ =>
    -- typing and choosing a race leave every form where it is
    simp only [screenAfter]
    split <;> exact .stays

theorem slides_handle {count : String → Nat} {event : PlayersEvent}
    (hne : event ≠ .unblurCompleted) {after : PlayersViewController × π}
    (h : vc.handle count provider event = .ok after) : vc.form.Slides 436 after.1.form := by
  obtain ⟨reply, hafter⟩ := screen_of_handle h
  rw [hafter]
  exact slides_screenAfter count reply hne

end PlayersViewController

/-! ### The forms of the app -/

namespace App

variable {π : Type} [DataProviding π]

/-- Every form has its overlay while it is open, and none once it is closed. -/
def Covered (app : App π) : Prop :=
  app.stats.form.Covered ∧ ∀ vc ∈ app.screens, vc.form.Covered

def HiddenWhenClosed (app : App π) : Prop :=
  app.stats.form.HiddenWhenClosed ∧ ∀ vc ∈ app.screens, vc.form.HiddenWhenClosed

/-- If a closing completes, then no form that is open again waited for it. -/
def CompletesClosed (app : App π) : AppEvent → Prop
  | .stats .unblurCompleted => app.stats.form.CompletesClosed
  | .players .unblurCompleted => ∀ i vc, app.top = some (i, vc) → vc.form.CompletesClosed
  | _ => True

/-- What a step does to the forms of the two screens. -/
inductive FormsDid (app : App π) : AppEvent → App π → Prop
  /-- A closing of the stats screen completed. -/
  | statsCompleted {app'} (stats : app'.stats.form = app.stats.form.unblurCompleted)
      (screens : app'.screens = app.screens) : FormsDid app (.stats .unblurCompleted) app'
  /-- A closing of the players screen completed. -/
  | playersCompleted {app' i vc vc'} (top : app.top = some (i, vc))
      (form : vc'.form = vc.form.unblurCompleted) (screens : app'.screens = app.screens.set i vc')
      (stats : app'.stats = app.stats) : FormsDid app (.players .unblurCompleted) app'
  /-- Forms were opened or closed, and a screen may be new. -/
  | slid {event app'} (closed : app.CompletesClosed event)
      (stats : app.stats.form.Slides 500 app'.stats.form)
      (screens : ∀ vc' ∈ app'.screens, (∃ vc ∈ app.screens, vc.form.Slides 436 vc'.form) ∨
        SlideUpForm.initial.Slides 436 vc'.form) : FormsDid app event app'

variable {app app' : App π}

omit [DataProviding π] in
theorem slides_of_screens_eq (h : app'.screens = app.screens) :
    ∀ vc' ∈ app'.screens, (∃ vc ∈ app.screens, vc.form.Slides 436 vc'.form) ∨
      SlideUpForm.initial.Slides 436 vc'.form := by
  intro vc' hmem
  exact Or.inl ⟨vc', h ▸ hmem, .stays⟩

omit [DataProviding π] in
/-- A step that leaves all forms alone. -/
theorem FormsDid.of_eq {event : AppEvent} (hclosed : app.CompletesClosed event)
    (hstats : app'.stats.form = app.stats.form) (hscreens : app'.screens = app.screens) :
    FormsDid app event app' :=
  .slid hclosed (hstats ▸ .stays) (slides_of_screens_eq hscreens)

theorem formsDid_of_stats {e : StatsEvent} {after : StatsViewController × π}
    (h : app.stats.handle app.provider e = .ok after) :
    FormsDid app (.stats e) { app with stats := after.1, provider := after.2 } := by
  by_cases hcompleted : e = .unblurCompleted
  · subst hcompleted
    cases h
    exact .statsCompleted rfl rfl
  · refine .slid ?_ (StatsViewController.slides_handle hcompleted h) (slides_of_screens_eq rfl)
    cases e <;> trivial

theorem formsDid_of_players {count : String → Nat} {e : PlayersEvent} {i : Nat}
    {vc : PlayersViewController} (htop : app.top = some (i, vc))
    {after : PlayersViewController × π} (h : vc.handle count app.provider e = .ok after) :
    FormsDid app (.players e)
      { app with screens := app.screens.set i after.1, provider := after.2 } := by
  by_cases hcompleted : e = .unblurCompleted
  · subst hcompleted
    cases h
    exact .playersCompleted htop rfl rfl rfl
  · refine .slid ?_ .stays ?_
    · cases e <;> trivial
    · intro vc' hmem
      left
      rcases List.mem_or_eq_of_mem_set hmem with hold | rfl
      · exact ⟨vc', hold, .stays⟩
      · exact ⟨vc, mem_screens_of_top htop, PlayersViewController.slides_handle hcompleted h⟩

omit [DataProviding π] in
/-- A completion that nothing takes finds no form that is open again. -/
theorem Ignores.completesClosed {event : AppEvent} (h : app.Ignores event) :
    app.CompletesClosed event := by
  cases event with
  | stats e =>
    cases e with
    | unblurCompleted => exact absurd (Or.inr rfl) h
    | _ => trivial
  | players e =>
    cases e with
    | unblurCompleted =>
      intro i vc htop
      rw [show app.top = none from h] at htop
      cases htop
    | _ => trivial
  | _ => trivial

theorem formsDid_of_step {count : String → Nat} {event : AppEvent}
    (h : app.step count event = .ok app') : FormsDid app event app' := by
  cases stepped_of_step h with
  | ignored ignores => exact .of_eq ignores.completesClosed rfl rfl
  | stats takes handled => exact formsDid_of_stats handled
  | changePlayerTapped uncovered => exact .of_eq trivial rfl rfl
  | players top handled => exact formsDid_of_players top handled
  | didSelectRow top listed => exact .of_eq trivial rfl rfl
  | presented block uncovered =>
    refine .slid trivial .stays ?_
    intro vc' hmem
    rcases List.mem_append.mp hmem with hold | hnew
    · exact Or.inl ⟨vc', hold, .stays⟩
    · right
      rw [List.mem_singleton.mp hnew]
      exact PlayersViewController.slides_viewDidLoad app.provider
  | selected block found listed updated =>
    exact .of_eq trivial (StatsViewController.form_updateStatsForPlayer updated) rfl
  | dropped idle => exact .of_eq trivial rfl rfl

/-! ### Whole runs -/

omit [DataProviding π] in
theorem Covered.formsDid_iff (h : app.Covered) {event : AppEvent}
    (hdid : FormsDid app event app') : app'.Covered ↔ app.CompletesClosed event := by
  cases hdid with
  | statsCompleted stats screens =>
    unfold Covered
    rw [stats, screens, h.1.unblurCompleted_iff]
    exact ⟨fun hboth => hboth.1, fun hcloses => ⟨hcloses, h.2⟩⟩
  | playersCompleted top form screens stats =>
    rename_i i vc vc'
    have hvc := h.2 vc (mem_screens_of_top top)
    obtain ⟨hlength, -⟩ := List.getElem?_eq_some_iff.mp (screens_of_top top)
    have hcloses : app.CompletesClosed (.players .unblurCompleted) ↔ vc'.form.Covered := by
      rw [form, hvc.unblurCompleted_iff]
      constructor
      · intro hall
        exact hall i vc top
      · intro hone j vc'' htop
        rw [top] at htop
        cases htop
        exact hone
    rw [hcloses]
    unfold Covered
    rw [stats, screens]
    constructor
    · intro hall
      exact hall.2 vc' (List.mem_set hlength vc')
    · intro hnew
      refine ⟨h.1, ?_⟩
      intro other hmem
      rcases List.mem_or_eq_of_mem_set hmem with hold | rfl
      · exact h.2 other hold
      · exact hnew
  | slid closed stats screens =>
    refine ⟨fun _ => closed, fun _ => ⟨h.1.slides (by norm_num) stats, ?_⟩⟩
    intro vc' hmem
    rcases screens vc' hmem with ⟨vc, hvc, hslides⟩ | hslides
    · exact (h.2 vc hvc).slides (by norm_num) hslides
    · exact SlideUpForm.covered_initial.slides (by norm_num) hslides

omit [DataProviding π] in
theorem HiddenWhenClosed.formsDid (h : app.HiddenWhenClosed) {event : AppEvent}
    (hdid : FormsDid app event app') : app'.HiddenWhenClosed := by
  cases hdid with
  | statsCompleted stats screens =>
    unfold HiddenWhenClosed
    rw [stats, screens]
    exact ⟨h.1.unblurCompleted, h.2⟩
  | playersCompleted top form screens stats =>
    unfold HiddenWhenClosed
    rw [stats, screens]
    refine ⟨h.1, ?_⟩
    intro other hmem
    rcases List.mem_or_eq_of_mem_set hmem with hold | rfl
    · exact h.2 other hold
    · rw [form]
      exact (h.2 _ (mem_screens_of_top top)).unblurCompleted
  | slid closed stats screens =>
    refine ⟨h.1.slides (by norm_num) stats, ?_⟩
    intro vc' hmem
    rcases screens vc' hmem with ⟨vc, hvc, hslides⟩ | hslides
    · exact (h.2 vc hvc).slides (by norm_num) hslides
    · exact SlideUpForm.covered_initial.hidden.slides (by norm_num) hslides

omit [DataProviding π] in
theorem covered_launch (provider : π) : (launch provider).Covered := by
  refine ⟨SlideUpForm.covered_initial, ?_⟩
  intro vc hmem
  cases hmem

/-- A completion always goes on. -/
theorem exists_step_of_not_completesClosed {count : String → Nat} {event : AppEvent}
    (h : ¬ app.CompletesClosed event) : ∃ app', app.step count event = .ok app' := by
  cases event with
  | stats e =>
    cases e with
    | unblurCompleted => exact ⟨_, if_pos (Or.inr rfl)⟩
    | _ => exact absurd trivial h
  | players e =>
    cases e with
    | unblurCompleted =>
      simp only [step]
      rcases app.top with _ | ⟨i, vc⟩
      · exact ⟨_, rfl⟩
      · exact ⟨_, rfl⟩
    | _ => exact absurd trivial h
  | _ => exact absurd trivial h

/-- **When an open form has its overlay.**  From launch, on both screens: an open
    form has its overlay, and a closed one with no completion to come has none, in
    every state a run reaches exactly when no closing completes under a form that was
    opened again meanwhile.  The half on closed forms holds in every run. -/
theorem allStates_covered_iff (count : String → Nat) (realm : Realm) (events : List AppEvent) :
    (AllStates (step count) Covered (launch realm) events ↔
      AllSteps (step count) CompletesClosed (launch realm) events) ∧
    AllStates (step count) HiddenWhenClosed (launch realm) events := by
  constructor
  · apply allStates_iff_allSteps (I := fun _ => True)
    · intro s e t _ _
      trivial
    · intro s e t _ h ht
      exact h.formsDid_iff (formsDid_of_step ht)
    · intro s e _ _ h
      exact exists_step_of_not_completesClosed h
    · trivial
    · exact covered_launch realm
  · apply allStates_of_invariant
    · intro s e t h ht
      exact h.formsDid (formsDid_of_step ht)
    · refine ⟨(covered_launch realm).1.hidden, ?_⟩
      intro vc hmem
      exact ((covered_launch realm).2 vc hmem).hidden

/-- The form of the stats screen is opened, closed and opened again before the closing
    completes. -/
def reopensMatchForm : List AppEvent :=
  [.stats .addMatchButtonTapped, .stats .tappedOnBackground, .stats .addMatchButtonTapped,
    .stats .unblurCompleted]

/-- And the form of the players screen, which a first save closes. -/
def reopensPlayerForm : List AppEvent :=
  [.runBlock 0 true, .players (.type "abc"), .players (.tapOnSave .succeeds),
    .players .addPlayerButtonTapped, .players .unblurCompleted]

/-- An open form without its overlay, on each screen. -/
theorem allStates_covered_counterexample :
    (∃ app, run (step String.length) (launch (Realm.opened Group.empty)) reopensMatchForm =
        .ok app ∧ app.stats.form.IsOpen ∧ app.stats.form.blurIsHidden = true) ∧
    (∃ app vc, run (step String.length) (launch (Realm.opened Group.empty)) reopensPlayerForm =
        .ok app ∧ vc ∈ app.screens ∧ vc.form.IsOpen ∧ vc.form.blurIsHidden = true) ∧
    ¬ ∀ (count : String → Nat) (realm : Realm) (events : List AppEvent),
        AllStates (step count) Covered (launch realm) events := by
  have hstats : ∃ app, run (step String.length) (launch (Realm.opened Group.empty))
      reopensMatchForm = .ok app ∧ app.stats.form.IsOpen ∧
        app.stats.form.blurIsHidden = true :=
    ⟨_, rfl, by decide, rfl⟩
  refine ⟨hstats, ⟨_, _, rfl, List.mem_singleton_self _, by decide, rfl⟩, ?_⟩
  intro h
  obtain ⟨app, hrun, hopen, hhidden⟩ := hstats
  have hall := h String.length (Realm.opened Group.empty) (reopensMatchForm ++ [])
  have hshown := (hall.of_run hrun).1.shown hopen
  rw [hhidden] at hshown
  cases hshown

end App

end W3Stats

import W3Stats.CounterHistory
import W3Stats.EditAlert

/-!
# The match form and the edit alert over the stats screen

`AddMatchResultView` keeps the match result it submits next to the two buttons and
the picker that show it, and nothing resets it after a save.  This module puts the
form over the app with the edit alert, which leaves nothing of the stats screen to
the environment but its taps: a run of the whole is a run of the app, and what the
handlers of the stats screen record is what the screen shows.
-/

namespace W3Stats

open StepMachine

/-! ### The form -/

structure AddMatchResultView where
  /-- The selected row of `racePicker`. -/
  pickerRow : Nat
  /-- The alphas of the two buttons, in tenths. -/
  winButtonAlpha : Nat
  loseButtonAlpha : Nat
  matchResult : MatchResult
deriving DecidableEq, Repr

namespace AddMatchResultView

/-- The view as its nib and `commonInit` build it. -/
def initial : AddMatchResultView := ⟨1, 10, 3, ⟨.human, .win⟩⟩

def tapOnWin (view : AddMatchResultView) : AddMatchResultView :=
  { view with
    loseButtonAlpha := 3
    winButtonAlpha := 10
    matchResult := { view.matchResult with resultType := .win } }

def tapOnLose (view : AddMatchResultView) : AddMatchResultView :=
  { view with
    winButtonAlpha := 3
    loseButtonAlpha := 10
    matchResult := { view.matchResult with resultType := .lose } }

/-- `pickerView(_:didSelectRow:inComponent:)`. -/
def didSelectRow (row : Fin Race.allRaces.length) (view : AddMatchResultView) :
    AddMatchResultView :=
  { view with
    pickerRow := row
    matchResult := { view.matchResult with vsRace := Race.allRaces.get row } }

/-- The result of the button that is not dimmed, against the race in the picker. -/
def shown (view : AddMatchResultView) : Option MatchResult :=
  Race.allRaces[view.pickerRow]?.map fun vsRace =>
    ⟨vsRace, if view.loseButtonAlpha < view.winButtonAlpha then .win else .lose⟩

/-- What the form submits is what it shows. -/
def ShowsSubmitted (view : AddMatchResultView) : Prop := view.shown = some view.matchResult

variable {view : AddMatchResultView}

theorem showsSubmitted_initial : initial.ShowsSubmitted := rfl

theorem ShowsSubmitted.race (h : view.ShowsSubmitted) :
    Race.allRaces[view.pickerRow]? = some view.matchResult.vsRace := by
  obtain ⟨vsRace, hrace, hresult⟩ := Option.map_eq_some_iff.mp h
  rw [hrace, ← hresult]

theorem ShowsSubmitted.tapOnWin (h : view.ShowsSubmitted) : view.tapOnWin.ShowsSubmitted := by
  simp [ShowsSubmitted, shown, AddMatchResultView.tapOnWin, h.race]

theorem ShowsSubmitted.tapOnLose (h : view.ShowsSubmitted) : view.tapOnLose.ShowsSubmitted := by
  simp [ShowsSubmitted, shown, AddMatchResultView.tapOnLose, h.race]

theorem ShowsSubmitted.didSelectRow (h : view.ShowsSubmitted)
    (row : Fin Race.allRaces.length) : (view.didSelectRow row).ShowsSubmitted := by
  obtain ⟨vsRace, -, hresult⟩ := Option.map_eq_some_iff.mp h
  simp [ShowsSubmitted, shown, AddMatchResultView.didSelectRow, ← hresult]

end AddMatchResultView

/-! ### The form over the app -/

structure MatchFormApp (π : Type) where
  editing : EditingApp π
  addMatchResultView : AddMatchResultView
deriving DecidableEq

inductive MatchFormEvent where
  /-- What can happen without the form. -/
  | editing (event : EditingEvent)
  | tapOnWin
  | tapOnLose
  | didSelectRow (row : Fin Race.allRaces.length)
  | tapOnSave (write : Write)
deriving DecidableEq, Repr

/-- The event of the app that only the form sends. -/
def EditingEvent.isMatchResult : EditingEvent → Bool
  | .app (.stats (.addNewMatchResult _ _)) => true
  | _ => false

namespace MatchFormApp

variable {π : Type} [DataProviding π]

def launch (provider : π) : MatchFormApp π := ⟨.launch provider, .initial⟩

/-- The form is slid up, and neither a players screen nor the alert covers it. -/
def Reaches (s : MatchFormApp π) : Prop :=
  s.editing.app.presented = none ∧ s.editing.editAlert = none ∧ s.editing.app.stats.form.IsOpen

instance (s : MatchFormApp π) : Decidable s.Reaches := by
  unfold Reaches SlideUpForm.IsOpen
  infer_instance

def step (count : String → Nat) (s : MatchFormApp π) :
    MatchFormEvent → Except Trap (MatchFormApp π)
  | .editing event =>
      if event.isMatchResult then .ok s
      else do
        let editing ← s.editing.step count event
        return { s with editing }
  | .tapOnWin =>
      if s.Reaches then .ok { s with addMatchResultView := s.addMatchResultView.tapOnWin }
      else .ok s
  | .tapOnLose =>
      if s.Reaches then .ok { s with addMatchResultView := s.addMatchResultView.tapOnLose }
      else .ok s
  | .didSelectRow row =>
      if s.Reaches then
        .ok { s with addMatchResultView := s.addMatchResultView.didSelectRow row }
      else .ok s
  | .tapOnSave write =>
      if s.Reaches then do
        let editing ← s.editing.step count
          (.app (.stats (.addNewMatchResult s.addMatchResultView.matchResult write)))
        return { s with editing }
      else .ok s

end MatchFormApp

/-! ### What the app below is given -/

namespace EditingApp

variable {π : Type} [DataProviding π]

/-- The event of the app that an event over it comes to. -/
def lower (s : EditingApp π) : EditingEvent → Option AppEvent
  | .app event => s.heard event
  | .tapOnSave write =>
      s.editAlert.bind fun alert =>
        (SwiftInt.ofText alert.text).bind fun newValue =>
          if h : 0 ≤ newValue.val then
            some (.stats (.saveNewValue ⟨newValue, h⟩ alert.race alert.matchResult write))
          else none
  | _ => none

/-- The alert is only up while no players screen is presented. -/
def Uncovered (s : EditingApp π) : Prop := s.editAlert ≠ none → s.app.presented = none

end EditingApp

namespace App

variable {π : Type} [DataProviding π] {app app' : App π} {event : AppEvent}

/-- A players screen is only presented by a block that UIKit obeys. -/
theorem presented_of_step {count : String → Nat} (h : app.step count event = .ok app')
    (hnone : app.presented = none) (hobeyed : ∀ position, event ≠ .runBlock position true) :
    app'.presented = none := by
  cases stepped_of_step h with
  | ignored ignores => exact hnone
  | stats takes handled => exact hnone
  | changePlayerTapped uncovered => exact hnone
  | players top handled => exact hnone
  | didSelectRow top listed => exact hnone
  | presented block uncovered => exact absurd rfl (hobeyed _)
  | selected block found listed updated =>
    dsimp only
    split
    · rfl
    · exact hnone
  | dropped idle => exact hnone

end App

namespace EditingApp

variable {π : Type} [DataProviding π] {s t : EditingApp π} {count : String → Nat}

omit [DataProviding π] in
theorem heard_ne_of_editAlert (h : s.editAlert ≠ none) {event heard : AppEvent}
    (hheard : s.heard event = some heard) (position : Nat) :
    heard ≠ .runBlock position true := by
  rintro rfl
  cases event with
  | runBlock position' obeyed =>
    obtain ⟨alert, halert⟩ := Option.ne_none_iff_exists'.mp h
    simp [EditingApp.heard, halert] at hheard
  | stats event =>
    simp only [EditingApp.heard] at hheard
    split at hheard <;> cases hheard
  | _ =>
    simp only [EditingApp.heard, if_neg h] at hheard
    cases hheard

theorem Uncovered.step (h : s.Uncovered) {event : EditingEvent} (ht : s.step count event = .ok t) :
    t.Uncovered := by
  cases event with
  | app event =>
    simp only [EditingApp.step] at ht
    rcases hheard : s.heard event with _ | heard
    · rw [hheard] at ht
      cases ht
      exact h
    · rw [hheard] at ht
      obtain ⟨app, happ, ht⟩ := bind_eq_ok.mp ht
      cases ht
      intro halert
      exact App.presented_of_step happ (h halert) (heard_ne_of_editAlert halert hheard)
  | onLongPress race matchResult =>
    simp only [EditingApp.step] at ht
    split at ht
    · rename_i hnone
      cases ht
      exact fun _ => hnone.1
    · cases ht
      exact h
  | edit range string =>
    cases ht
    intro halert
    apply h
    intro hnone
    simp [hnone] at halert
  | tapOnCancel =>
    cases ht
    exact fun halert => absurd rfl halert
  | tapOnSave write =>
    simp only [EditingApp.step] at ht
    rcases halert : s.editAlert with _ | alert
    · rw [halert] at ht
      cases ht
      exact h
    · rw [halert] at ht
      obtain ⟨after, hsave, ht⟩ := bind_eq_ok.mp ht
      cases ht
      exact fun hnone => absurd rfl hnone

/-- A step over the app is the step of the app it comes to, or leaves the app alone. -/
theorem step_lower [LawfulProvider π] (count : String → Nat) (hsound : s.Sound)
    (huncovered : s.Uncovered) (event : EditingEvent) :
    Agree (fun t app => app = t.app) (s.step count event)
      (stepOption (App.step count) s.app (s.lower event)) := by
  cases event with
  | app event =>
    simp only [EditingApp.step, lower]
    rcases hheard : s.heard event with _ | heard
    · rfl
    · simp only [stepOption]
      rcases s.app.step count heard with x | app
      · rfl
      · rfl
  | onLongPress race matchResult =>
    simp only [EditingApp.step, lower]
    split <;> rfl
  | edit range string => rfl
  | tapOnCancel => rfl
  | tapOnSave write =>
    simp only [EditingApp.step, lower]
    rcases halert : s.editAlert with _ | alert
    · rfl
    · simp only [Option.bind_some, EditAlert.save]
      rcases hvalue : SwiftInt.ofText alert.text with _ | newValue
      · rfl
      · have hnonneg := EditAlert.nonneg_of_ofText (hsound.digits alert halert) hvalue
        have hnone : s.app.presented = none := huncovered (by simp [halert])
        simp only [Option.bind_some, dif_pos hnonneg, stepOption, App.step, App.Takes, hnone,
          true_or, if_true,
          StatsViewController.handle]
        rcases s.app.stats.saveNewValue newValue alert.race alert.matchResult write
          s.app.provider with x | after
        · rfl
        · rfl

end EditingApp

namespace MatchFormApp

variable {π : Type} [DataProviding π]

/-- The event of the app that an event over it comes to: a tap on Save is one with the
    result that the form has. -/
def lower (s : MatchFormApp π) : MatchFormEvent → Option AppEvent
  | .editing event => if event.isMatchResult then none else s.editing.lower event
  | .tapOnSave write =>
      if s.Reaches then some (.stats (.addNewMatchResult s.addMatchResultView.matchResult write))
      else none
  | _ => none

/-- What the states of a run have in common. -/
structure Sound [LawfulProvider π] (s : MatchFormApp π) : Prop where
  editing : s.editing.Sound
  uncovered : s.editing.Uncovered
  form : s.addMatchResultView.ShowsSubmitted

variable [LawfulProvider π] {s t : MatchFormApp π} {count : String → Nat}

theorem sound_launch {provider : π} (hready : LawfulProvider.Ready provider)
    (hstored : (LawfulProvider.contents provider).Nonneg) : (launch provider).Sound :=
  ⟨EditingApp.sound_launch hready hstored, fun h => absurd rfl h,
    AddMatchResultView.showsSubmitted_initial⟩

theorem Sound.editing_step (h : s.Sound) {event : EditingEvent} {editing : EditingApp π}
    (ht : s.editing.step count event = .ok editing) : Sound { s with editing } :=
  ⟨h.editing.step ht, h.uncovered.step ht, h.form⟩

theorem Sound.step (h : s.Sound) {event : MatchFormEvent} (ht : s.step count event = .ok t) :
    t.Sound := by
  cases event with
  | editing event =>
    simp only [MatchFormApp.step] at ht
    split at ht
    · cases ht
      exact h
    · obtain ⟨editing, hediting, ht⟩ := bind_eq_ok.mp ht
      cases ht
      exact h.editing_step hediting
  | tapOnWin =>
    simp only [MatchFormApp.step] at ht
    split at ht
    · cases ht
      exact ⟨h.editing, h.uncovered, h.form.tapOnWin⟩
    · cases ht
      exact h
  | tapOnLose =>
    simp only [MatchFormApp.step] at ht
    split at ht
    · cases ht
      exact ⟨h.editing, h.uncovered, h.form.tapOnLose⟩
    · cases ht
      exact h
  | didSelectRow row =>
    simp only [MatchFormApp.step] at ht
    split at ht
    · cases ht
      exact ⟨h.editing, h.uncovered, h.form.didSelectRow row⟩
    · cases ht
      exact h
  | tapOnSave write =>
    simp only [MatchFormApp.step] at ht
    split at ht
    · obtain ⟨editing, hediting, ht⟩ := bind_eq_ok.mp ht
      cases ht
      exact h.editing_step hediting
    · cases ht
      exact h

omit [DataProviding π] [LawfulProvider π] in
theorem agree_editing {editing : Except Trap (EditingApp π)} {app : Except Trap (App π)}
    (h : Agree (fun t app => app = t.app) editing app) (s : MatchFormApp π) :
    Agree (fun t app => app = t.editing.app)
      (do let editing ← editing; return { s with editing }) app := by
  rcases editing with x | editing
  · rw [h.of_error]
    rfl
  · obtain ⟨app', rfl, happ⟩ := h.of_ok
    exact happ

/-- A step of the whole is the step of the app it comes to, or leaves the app alone. -/
theorem step_lower (count : String → Nat) (h : s.Sound) (event : MatchFormEvent) :
    Agree (fun t app => app = t.editing.app) (s.step count event)
      (stepOption (App.step count) s.editing.app (s.lower event)) := by
  cases event with
  | editing event =>
    simp only [MatchFormApp.step, lower]
    split
    · rfl
    · exact agree_editing (EditingApp.step_lower count h.editing h.uncovered event) s
  | tapOnWin =>
    simp only [MatchFormApp.step, lower]
    split <;> rfl
  | tapOnLose =>
    simp only [MatchFormApp.step, lower]
    split <;> rfl
  | didSelectRow row =>
    simp only [MatchFormApp.step, lower]
    split <;> rfl
  | tapOnSave write =>
    simp only [MatchFormApp.step, lower]
    split
    · rename_i hreaches
      have hheard : s.editing.heard
          (.stats (.addNewMatchResult s.addMatchResultView.matchResult write)) =
          some (.stats (.addNewMatchResult s.addMatchResultView.matchResult write)) :=
        if_pos (Or.inr ⟨hreaches.2.1, rfl⟩)
      have hstep := EditingApp.step_lower count h.editing h.uncovered
        (.app (.stats (.addNewMatchResult s.addMatchResultView.matchResult write)))
      simp only [EditingApp.lower, hheard] at hstep
      exact agree_editing hstep s
    · rfl

/-- **The alert and the form only use the app.**  Take any run of the app with the
    edit alert and the match form over it, from any Realm without negative counters.
    It ends as the run of the app does that is given what the alert and the form come
    to, in the same app or with the same trap. -/
theorem run_lower (count : String → Nat) (realm : Realm) (hready : realm.Ready)
    (hstored : realm.contents.Nonneg) (events : List MatchFormEvent) :
    Agree (fun t app => app = t.editing.app) (run (step count) (launch realm) events)
      (run (App.step count) (App.launch realm)
        (translate (step count) lower (launch realm) events)) := by
  have hstep : ∀ (s : MatchFormApp Realm) event t, s.Sound → step count s event = .ok t →
      t.Sound := by
    intro s event t h ht
    exact h.step ht
  exact run_translate hstep (fun s event h => step_lower count h event)
    (sound_launch hready hstored) events

/-- The player stored is selected, loses a match against the orcs, and its losses are
    then corrected to twelve. -/
def losesAndEdits : List MatchFormEvent :=
  [.editing (.app (.runBlock 0 true)), .editing (.app (.didSelectRow 0)),
    .editing (.app (.runBlock 0 true)), .editing (.app (.stats .addMatchButtonTapped)), .tapOnLose,
    .didSelectRow ⟨2, by decide⟩, .tapOnSave .succeeds, .editing (.onLongPress .orc .lose),
    .editing (.edit ⟨0, 1⟩ "12"), .editing (.tapOnSave .succeeds)]

theorem run_lower_losesAndEdits :
    Agree (fun t app => app = t.editing.app)
      (run (step String.length) (launch StatsOperation.onePlayer) losesAndEdits)
      (run (App.step String.length) (App.launch StatsOperation.onePlayer)
        (translate (step String.length) lower (launch StatsOperation.onePlayer) losesAndEdits)) :=
  run_lower String.length _ StatsOperation.ready_onePlayer.1 StatsOperation.ready_onePlayer.2
    losesAndEdits

/-! ### What the screen shows is what is recorded -/

end MatchFormApp

def EditingEvent.write? : EditingEvent → Option Write
  | .app event => event.write?
  | .tapOnSave write => some write
  | _ => none

def MatchFormEvent.write? : MatchFormEvent → Option Write
  | .editing event => event.write?
  | .tapOnSave write => some write
  | _ => none

namespace StatsViewController

/-- The name on the screen, while a player is held. -/
def shownName (vc : StatsViewController) : Option String :=
  vc.player.bind fun _ => vc.display.map fun display => display.playerView.name

variable {π : Type} [DataProviding π] {vc : StatsViewController} {provider : π}

theorem InSync.shownName (h : vc.InSync provider) : vc.shownName = vc.player.map Player.name := by
  rcases hplayer : vc.player with _ | player
  · simp only [StatsViewController.shownName, hplayer, Option.bind_none, Option.map_none]
  · obtain ⟨display, hdisplay, hshows⟩ := h.shown player hplayer
    simp only [StatsViewController.shownName, hplayer, hdisplay, Option.bind_some, Option.map_some,
      hshows.name]

end StatsViewController

namespace EditAlert

/-- What the alert and the screen under it say that Save will record. -/
def shownAction? (vc : StatsViewController) (alert : EditAlert) : Option PlayerAction :=
  if IsStorable alert.text then
    vc.shownName.map fun name =>
      .saveNewValue name (decimalValue alert.text) alert.race alert.matchResult
  else none

end EditAlert

namespace MatchFormApp

variable {π : Type} [DataProviding π]

/-- What the screen says that an event will record: a save of the form one more match
    with the result and against the race shown, for the player on the screen. -/
def shownAction? (s : MatchFormApp π) : MatchFormEvent → Option PlayerAction
  | .tapOnSave _ =>
      if s.Reaches then
        s.editing.app.stats.shownName.bind fun name =>
          s.addMatchResultView.shown.map fun result => .addNewMatchResult name result
      else none
  | .editing (.tapOnSave _) =>
      s.editing.editAlert.bind fun alert => alert.shownAction? s.editing.app.stats
  | .editing (.app event) =>
      if (EditingEvent.app event).isMatchResult then none
      else (s.editing.heard event).bind s.editing.app.action?
  | _ => none

/-- What the screens of a run said that its events would record. -/
def shownHistory (count : String → Nat) (provider : π) (events : List MatchFormEvent) :
    List PlayerAction :=
  account (step count) (fun actions s event => actions ++ (s.shownAction? event).toList) []
    (launch provider) events

variable [LawfulProvider π] {s t : MatchFormApp π} {count : String → Nat}

omit [DataProviding π] [LawfulProvider π] in
theorem action?_stats {app : App π} (hnone : app.presented = none) (e : StatsEvent) :
    app.action? (.stats e) = app.stats.player.bind fun player => e.action? player.name :=
  if_pos (Or.inl hnone)

/-- What the screen says is what the app below does. -/
theorem shownAction?_eq (h : s.Sound)
    (hsync : s.editing.app.presented = none → s.editing.app.stats.InSync s.editing.app.provider)
    (event : MatchFormEvent) :
    s.shownAction? event = (s.lower event).bind s.editing.app.action? := by
  cases event with
  | editing event =>
    cases event with
    | app event =>
      simp only [shownAction?, lower]
      split <;> rfl
    | tapOnSave write =>
      simp only [shownAction?, lower, EditingEvent.isMatchResult, EditingApp.lower]
      rcases halert : s.editing.editAlert with _ | alert
      · rfl
      · have hdigits := h.editing.digits alert halert
        have hnone := h.uncovered (by simp [halert])
        simp only [Option.bind_some, EditAlert.shownAction?]
        by_cases hstorable : EditAlert.IsStorable alert.text
        · obtain ⟨newValue, hvalue, hval⟩ := EditAlert.ofText_of_isStorable hdigits hstorable
          have hnonneg := EditAlert.nonneg_of_ofText hdigits hvalue
          simp only [if_pos hstorable, hvalue, Option.bind_some, dif_pos hnonneg,
            if_neg Bool.false_ne_true]
          rw [action?_stats hnone, (hsync hnone).shownName, ← hval]
          rcases s.editing.app.stats.player with _ | player
          · rfl
          · rfl
        · rw [if_neg hstorable, EditAlert.ofText_of_not_isStorable hdigits hstorable]
          rfl
    | _ => rfl
  | tapOnSave write =>
    simp only [shownAction?, lower]
    split
    · rename_i hreaches
      rw [Option.bind_some, action?_stats hreaches.1, (hsync hreaches.1).shownName,
        show s.addMatchResultView.shown = some s.addMatchResultView.matchResult from h.form]
      rcases s.editing.app.stats.player with _ | player
      · rfl
      · rfl
    · rfl
  | _ => rfl

omit [DataProviding π] [LawfulProvider π] in
theorem write?_of_heard {s : EditingApp π} {event heard : AppEvent}
    (h : s.heard event = some heard) : heard.write? = event.write? := by
  cases event with
  | stats event =>
    simp only [EditingApp.heard] at h
    split at h <;> cases h
    rfl
  | runBlock position obeyed =>
    cases h
    rfl
  | _ =>
    simp only [EditingApp.heard] at h
    split at h <;> cases h
    rfl

omit [DataProviding π] [LawfulProvider π] in
theorem write?_of_lower {event : MatchFormEvent} {event' : AppEvent}
    (h : s.lower event = some event') : event'.write? = event.write? := by
  cases event with
  | editing event =>
    simp only [lower] at h
    split at h
    · cases h
    · cases event with
      | app event => exact write?_of_heard h
      | tapOnSave write =>
        obtain ⟨alert, -, h⟩ := Option.bind_eq_some_iff.mp h
        obtain ⟨newValue, -, h⟩ := Option.bind_eq_some_iff.mp h
        split at h <;> cases h
        rfl
      | _ => cases h
  | tapOnSave write =>
    simp only [lower] at h
    split at h <;> cases h
    rfl
  | _ => cases h

theorem replayed_step {initial : String → Option Score} {actions : List PlayerAction}
    (hsound : s.Sound) (h : App.Replayed initial actions s.editing.app) {event : MatchFormEvent}
    (hwrite : event.write? ≠ some .fails) (ht : s.step count event = .ok t) :
    App.Replayed initial (actions ++ (s.shownAction? event).toList) t.editing.app := by
  have hlower := step_lower count hsound event
  rw [ht] at hlower
  obtain ⟨app, happ, rfl⟩ := hlower.of_ok
  rw [shownAction?_eq hsound h.inSync]
  rcases hevent : s.lower event with _ | event'
  · rw [hevent] at happ
    have hsame : s.editing.app = t.editing.app := Except.ok.inj happ
    rw [Option.bind_none, Option.toList_none, List.append_nil, ← hsame]
    exact h
  · rw [hevent] at happ
    rw [Option.bind_some]
    exact h.step (write?_of_lower hevent ▸ hwrite) happ

/-- **What the screen shows is what is recorded.**  Take any run of the whole app from
    any Realm without negative counters, in which no write fails.  The scores stored
    are the replay of what the screen said at each tap: the player, the race and the
    result shown when the form was saved, and the counter and the number in the text
    field when the alert was.  And while nothing covers the stats screen, a player it
    holds is the one stored and the one its views show. -/
theorem counters_shown (count : String → Nat) (realm : Realm) (hready : realm.Ready)
    (hstored : realm.contents.Nonneg) (events : List MatchFormEvent)
    (hwrites : ∀ event ∈ events, event.write? ≠ some .fails) {s : MatchFormApp Realm}
    (hrun : run (step count) (launch realm) events = .ok s) :
    (∀ name, (RealmDataProvider.loadPlayer name s.editing.app.provider).map Player.score =
        scoreAfter name ((RealmDataProvider.loadPlayer name realm).map Player.score)
          (shownHistory count realm events)) ∧
      (s.editing.app.presented = none →
        s.editing.app.stats.InSync s.editing.app.provider) := by
  have hkeeps : ∀ actions (s : MatchFormApp Realm) event t,
      s.Sound ∧ App.Replayed realm.contents.score actions s.editing.app →
      event.write? ≠ some .fails → step count s event = .ok t →
      t.Sound ∧ App.Replayed realm.contents.score (actions ++ (s.shownAction? event).toList)
        t.editing.app :=
    fun actions s event t h hwrite ht => ⟨h.1.step ht, replayed_step h.1 h.2 hwrite ht⟩
  have hend : _ ∧ App.Replayed realm.contents.score (shownHistory count realm events)
      s.editing.app :=
    run_account hkeeps ⟨sound_launch hready hstored, App.replayed_launch hready⟩ hwrites hrun
  refine ⟨fun name => ?_, hend.2.inSync⟩
  rw [RealmDataProvider.loadPlayer_eq hend.2.ready, RealmDataProvider.loadPlayer_eq hready]
  exact hend.2.replayed name

theorem counters_shown_losesAndEdits :
    ∃ s, run (step String.length) (launch StatsOperation.onePlayer) losesAndEdits = .ok s ∧
      (∀ name, (RealmDataProvider.loadPlayer name s.editing.app.provider).map Player.score =
        scoreAfter name
          ((RealmDataProvider.loadPlayer name StatsOperation.onePlayer).map Player.score)
          (shownHistory String.length StatsOperation.onePlayer losesAndEdits)) ∧
      (s.editing.app.presented = none →
        s.editing.app.stats.InSync s.editing.app.provider) := by
  have hok : (run (step String.length) (launch StatsOperation.onePlayer)
      losesAndEdits).toOption.isSome = true := by
    decide +kernel
  rcases hrun : run (step String.length) (launch StatsOperation.onePlayer) losesAndEdits with
    trap | s
  · rw [hrun] at hok
    cases hok
  · exact ⟨s, rfl, counters_shown String.length _ StatsOperation.ready_onePlayer.1
      StatsOperation.ready_onePlayer.2 losesAndEdits (by decide) hrun⟩

end MatchFormApp

end W3Stats

import W3Stats.PlayerMap
import W3Stats.SlideUpForm

/-!
# AddPlayerView and PlayersViewController

The players screen: the array of players behind its table, the form that adds
one, and the handlers of both.  What decides whether a name may be saved is its
number of characters, a parameter here because nothing depends on how the
characters of a string are counted.
-/

namespace W3Stats

/-! ### AddPlayerView -/

structure NewPlayer where
  name : String
  race : Race
deriving DecidableEq, Repr

structure AddPlayerView where
  /-- `nameTextField.text`. -/
  nameText : Option String
  /-- The selected row of `racePicker`. -/
  pickerRow : Nat
  saveButtonIsEnabled : Bool
  playerResult : NewPlayer
deriving DecidableEq, Repr

namespace AddPlayerView

/-- The view as its nib and `commonInit` build it. -/
def initial : AddPlayerView := ⟨none, 1, false, ⟨"", .human⟩⟩

variable (count : String → Nat)

def isCorrectName (name : String) : Bool := if count name ≥ 3 then true else false

def textFieldEditingChanged (view : AddPlayerView) : AddPlayerView :=
  match view.nameText with
  | none => view
  | some name =>
      { view with
        playerResult := { view.playerResult with name }
        saveButtonIsEnabled := isCorrectName count name }

/-- The user edits the text field, which then sends its action. -/
def type (text : String) (view : AddPlayerView) : AddPlayerView :=
  textFieldEditingChanged count { view with nameText := some text }

/-- `pickerView(_:didSelectRow:inComponent:)`. -/
def didSelectRow (row : Fin Race.allRaces.length) (view : AddPlayerView) : AddPlayerView :=
  { view with
    pickerRow := row
    playerResult := { view.playerResult with race := Race.allRaces.get row } }

end AddPlayerView

/-! ### PlayersViewController -/

structure PlayersViewController where
  players : List Player
  form : SlideUpForm
  addPlayerView : AddPlayerView
  /-- The messages of the alerts presented so far. -/
  alerts : List String
deriving DecidableEq, Repr

namespace PlayersViewController

def showAddPlayerView (vc : PlayersViewController) : PlayersViewController :=
  { vc with form := vc.form.slideUp 436 }

def hideAddPlayerView (vc : PlayersViewController) : PlayersViewController :=
  { vc with form := vc.form.slideDown }

def presentAlertWithMessage (message : String) (vc : PlayersViewController) :
    PlayersViewController :=
  { vc with alerts := vc.alerts ++ [message] }

/-- The `onFailed` closures.  Their `return` leaves the closure, so what follows the
    call of the provider is done in either case. -/
def onReply (message : String) (reply : Reply) (vc : PlayersViewController) :
    PlayersViewController :=
  match reply with
  | .done => vc
  | .onFailed => vc.presentAlertWithMessage message

variable {π : Type} [DataProviding π]

/-- A new screen after `viewDidLoad`. -/
def viewDidLoad (provider : π) : PlayersViewController :=
  let vc : PlayersViewController :=
    ⟨DataProviding.loadPlayers provider, .initial, .initial, []⟩
  if vc.players.isEmpty then vc.showAddPlayerView else vc

def tappedOnBackground (vc : PlayersViewController) : PlayersViewController :=
  if !vc.players.isEmpty then vc.hideAddPlayerView else vc

def addPlayerButtonTapped (vc : PlayersViewController) : PlayersViewController :=
  vc.showAddPlayerView

/-- What `addNewPlayer` does after the call of the provider. -/
def listNewPlayer (player : Player) (reply : Reply) (vc : PlayersViewController) :
    PlayersViewController :=
  let vc := vc.onReply "Failed to save player." reply
  let vc := { vc with players := vc.players ++ [player] }
  vc.hideAddPlayerView

def addNewPlayer (playerResult : NewPlayer) (write : Write) (vc : PlayersViewController)
    (provider : π) : Except Trap (PlayersViewController × π) := do
  let player : Player := ⟨playerResult.name, playerResult.race, .empty⟩
  let (provider, reply) ← DataProviding.savePlayer player write provider
  return (vc.listNewPlayer player reply, provider)

/-- What a deletion does after the call of the provider. -/
def removeRow (row : Nat) (reply : Reply) (vc : PlayersViewController) : PlayersViewController :=
  let vc := vc.onReply "Failed to delete player." reply
  { vc with players := vc.players.eraseIdx row }

/-- `tableView(_:commit:forRowAt:)` with the editing style `.delete`. -/
def commitDelete (row : Nat) (write : Write) (vc : PlayersViewController) (provider : π) :
    Except Trap (PlayersViewController × π) :=
  match vc.players[row]? with
  | none => .error .indexOutOfRange
  | some player => do
      let (provider, reply) ← DataProviding.deletePlayer player.name write provider
      return (vc.removeRow row reply, provider)

/-- `tapOnSave` of the form. -/
def tapOnSave (write : Write) (vc : PlayersViewController) (provider : π) :
    Except Trap (PlayersViewController × π) := do
  let (vc, provider) ← vc.addNewPlayer vc.addPlayerView.playerResult write provider
  return ({ vc with addPlayerView := { vc.addPlayerView with nameText := none } }, provider)

/-! ### What the handlers do to the list and the store -/

theorem players_viewDidLoad (provider : π) :
    (viewDidLoad provider).players = DataProviding.loadPlayers provider := by
  unfold viewDidLoad
  simp only
  split <;> rfl

theorem addPlayerView_viewDidLoad (provider : π) :
    (viewDidLoad provider).addPlayerView = .initial := by
  unfold viewDidLoad
  simp only
  split <;> rfl

/-- The form is open at once when there is no player yet. -/
theorem isOpen_viewDidLoad (provider : π) :
    (viewDidLoad provider).form.IsOpen ↔
      (DataProviding.loadPlayers provider).isEmpty = true := by
  unfold viewDidLoad
  simp only
  split
  · rename_i hempty
    simp [hempty, showAddPlayerView]
  · rename_i hempty
    simp [hempty, SlideUpForm.initial, SlideUpForm.IsOpen]

@[simp] theorem players_listNewPlayer (player : Player) (reply : Reply)
    (vc : PlayersViewController) :
    (vc.listNewPlayer player reply).players = vc.players ++ [player] := by
  cases reply <;> rfl

@[simp] theorem form_listNewPlayer (player : Player) (reply : Reply)
    (vc : PlayersViewController) :
    (vc.listNewPlayer player reply).form = vc.form.slideDown := by
  cases reply <;> rfl

@[simp] theorem addPlayerView_listNewPlayer (player : Player) (reply : Reply)
    (vc : PlayersViewController) :
    (vc.listNewPlayer player reply).addPlayerView = vc.addPlayerView := by
  cases reply <;> rfl

@[simp] theorem players_removeRow (row : Nat) (reply : Reply) (vc : PlayersViewController) :
    (vc.removeRow row reply).players = vc.players.eraseIdx row := by
  cases reply <;> rfl

@[simp] theorem form_removeRow (row : Nat) (reply : Reply) (vc : PlayersViewController) :
    (vc.removeRow row reply).form = vc.form := by
  cases reply <;> rfl

@[simp] theorem addPlayerView_removeRow (row : Nat) (reply : Reply)
    (vc : PlayersViewController) :
    (vc.removeRow row reply).addPlayerView = vc.addPlayerView := by
  cases reply <;> rfl

/-- The screen after a save: its player is listed, and the text field is empty. -/
def saved (reply : Reply) (vc : PlayersViewController) : PlayersViewController :=
  { vc.listNewPlayer ⟨vc.addPlayerView.playerResult.name, vc.addPlayerView.playerResult.race,
      .empty⟩ reply with
    addPlayerView := { vc.addPlayerView with nameText := none } }

theorem tapOnSave_eq_ok {vc : PlayersViewController} {provider : π} {write : Write}
    {after : PlayersViewController × π} (h : vc.tapOnSave write provider = .ok after) :
    ∃ reply, after.1 = vc.saved reply := by
  obtain ⟨added, hadded, h⟩ := bind_eq_ok.mp h
  obtain ⟨⟨provider', reply⟩, -, hadded⟩ := bind_eq_ok.mp hadded
  cases hadded
  cases h
  refine ⟨reply, ?_⟩
  simp only [saved, addPlayerView_listNewPlayer]

theorem commitDelete_eq_ok {vc : PlayersViewController} {provider : π} {row : Nat}
    {write : Write} {after : PlayersViewController × π}
    (h : vc.commitDelete row write provider = .ok after) :
    ∃ reply, after.1 = vc.removeRow row reply := by
  unfold commitDelete at h
  split at h
  · cases h
  · obtain ⟨⟨provider', reply⟩, -, h⟩ := bind_eq_ok.mp h
    cases h
    exact ⟨reply, rfl⟩

variable [LawfulProvider π] {vc : PlayersViewController} {provider : π}

/-- A player whose name is not stored is listed, and stored if the write goes
    through. -/
theorem addNewPlayer_fresh (vc : PlayersViewController) (hready : LawfulProvider.Ready provider)
    {playerResult : NewPlayer} (h : playerResult.name ∉ LawfulProvider.contents provider)
    (write : Write) :
    ∃ provider', vc.addNewPlayer playerResult write provider =
        .ok (vc.listNewPlayer ⟨playerResult.name, playerResult.race, .empty⟩ write.reply,
          provider') ∧
      LawfulProvider.Ready provider' ∧
      LawfulProvider.contents provider' = write.choose (LawfulProvider.contents provider)
        ((LawfulProvider.contents provider).insert playerResult.name
          ⟨playerResult.race, .empty⟩) := by
  obtain ⟨provider', hsave, hready', hcontents⟩ := LawfulProvider.savePlayer_eq hready
    ⟨playerResult.name, playerResult.race, .empty⟩ h write
  refine ⟨provider', ?_, hready', hcontents⟩
  simp only [addNewPlayer, hsave]
  rfl

/-- A name that is stored raises. -/
theorem addNewPlayer_existing (hready : LawfulProvider.Ready provider) {playerResult : NewPlayer}
    (h : playerResult.name ∈ LawfulProvider.contents provider) (write : Write) :
    vc.addNewPlayer playerResult write provider =
      .error (.exception (.existingPrimaryKey "PlayerObject" playerResult.name)) := by
  have hsave := LawfulProvider.savePlayer_existing hready
    ⟨playerResult.name, playerResult.race, .empty⟩ h write
  simp only [addNewPlayer, hsave]
  rfl

theorem tapOnSave_fresh (hready : LawfulProvider.Ready provider)
    (h : vc.addPlayerView.playerResult.name ∉ LawfulProvider.contents provider) (write : Write) :
    ∃ vc' provider', vc.tapOnSave write provider = .ok (vc', provider') ∧
      vc'.players = vc.players ++ [⟨vc.addPlayerView.playerResult.name,
        vc.addPlayerView.playerResult.race, .empty⟩] ∧
      vc'.form = vc.form.slideDown ∧
      vc'.addPlayerView = { vc.addPlayerView with nameText := none } ∧
      LawfulProvider.Ready provider' ∧
      LawfulProvider.contents provider' = write.choose (LawfulProvider.contents provider)
        ((LawfulProvider.contents provider).insert vc.addPlayerView.playerResult.name
          ⟨vc.addPlayerView.playerResult.race, .empty⟩) := by
  obtain ⟨provider', hadd, hready', hcontents⟩ := addNewPlayer_fresh vc hready h write
  have hsave : vc.tapOnSave write provider = .ok (vc.saved write.reply, provider') := by
    simp only [tapOnSave, hadd]
    simp only [bind, Except.bind, pure, Except.pure, saved, addPlayerView_listNewPlayer]
  refine ⟨_, provider', hsave, ?_, ?_, rfl, hready', hcontents⟩
  · exact players_listNewPlayer _ _ _
  · exact form_listNewPlayer _ _ _

theorem tapOnSave_existing (hready : LawfulProvider.Ready provider)
    (h : vc.addPlayerView.playerResult.name ∈ LawfulProvider.contents provider) (write : Write) :
    vc.tapOnSave write provider = .error (.exception (.existingPrimaryKey "PlayerObject"
      vc.addPlayerView.playerResult.name)) := by
  simp only [tapOnSave, addNewPlayer_existing hready h write]
  rfl

/-- The row is removed whatever the provider replies. -/
theorem commitDelete_eq (hready : LawfulProvider.Ready provider) {row : Nat} {player : Player}
    (hrow : vc.players[row]? = some player) (write : Write) :
    ∃ provider' reply, vc.commitDelete row write provider =
        .ok (vc.removeRow row reply, provider') ∧
      LawfulProvider.Ready provider' ∧
      LawfulProvider.contents provider' = write.choose (LawfulProvider.contents provider)
        ((LawfulProvider.contents provider).erase player.name) := by
  obtain ⟨provider', reply, hdelete, hready', hcontents⟩ :=
    LawfulProvider.deletePlayer_eq hready player.name write
  refine ⟨provider', reply, ?_, hready', hcontents⟩
  simp only [commitDelete, hrow, hdelete]
  rfl

end PlayersViewController

/-! ### Events of the screen -/

/-- What can happen on the players screen. -/
inductive PlayersEvent where
  | type (text : String)
  | didSelectRace (row : Fin Race.allRaces.length)
  | tapOnSave (write : Write)
  | addPlayerButtonTapped
  | tappedOnBackground
  | commitDelete (row : Nat) (write : Write)
  | unblurCompleted
deriving DecidableEq, Repr

/-- The form takes events while it is open, its button while it is enabled, and a
    row can be deleted when it is there; other events have no effect. -/
def PlayersViewController.handle {π : Type} [DataProviding π] (count : String → Nat)
    (vc : PlayersViewController) (provider : π) :
    PlayersEvent → Except Trap (PlayersViewController × π)
  | .type text =>
      if vc.form.IsOpen then
        .ok ({ vc with addPlayerView := vc.addPlayerView.type count text }, provider)
      else .ok (vc, provider)
  | .didSelectRace row =>
      if vc.form.IsOpen then
        .ok ({ vc with addPlayerView := vc.addPlayerView.didSelectRow row }, provider)
      else .ok (vc, provider)
  | .tapOnSave write =>
      if vc.form.IsOpen ∧ vc.addPlayerView.saveButtonIsEnabled then vc.tapOnSave write provider
      else .ok (vc, provider)
  | .addPlayerButtonTapped => .ok (vc.addPlayerButtonTapped, provider)
  | .tappedOnBackground => .ok (vc.tappedOnBackground, provider)
  | .commitDelete row write =>
      if row < vc.players.length then vc.commitDelete row write provider else .ok (vc, provider)
  | .unblurCompleted => .ok ({ vc with form := vc.form.unblurCompleted }, provider)

/-! ### What an event does to the screen -/

namespace PlayersViewController

/-- The screen after an event, if that is what the provider replied. -/
def screenAfter (count : String → Nat) (reply : Reply) (vc : PlayersViewController) :
    PlayersEvent → PlayersViewController
  | .type text =>
      if vc.form.IsOpen then { vc with addPlayerView := vc.addPlayerView.type count text } else vc
  | .didSelectRace row =>
      if vc.form.IsOpen then { vc with addPlayerView := vc.addPlayerView.didSelectRow row } else vc
  | .tapOnSave _ =>
      if vc.form.IsOpen ∧ vc.addPlayerView.saveButtonIsEnabled then vc.saved reply else vc
  | .addPlayerButtonTapped => vc.addPlayerButtonTapped
  | .tappedOnBackground => vc.tappedOnBackground
  | .commitDelete row _ => if row < vc.players.length then vc.removeRow row reply else vc
  | .unblurCompleted => { vc with form := vc.form.unblurCompleted }

variable {π : Type} [DataProviding π] {count : String → Nat} {vc : PlayersViewController}
  {provider : π}

/-- The provider decides the reply, and whether the event goes on at all. -/
theorem screen_of_handle {event : PlayersEvent} {after : PlayersViewController × π}
    (h : vc.handle count provider event = .ok after) :
    ∃ reply, after.1 = vc.screenAfter count reply event := by
  cases event with
  | tapOnSave write =>
    by_cases haccepted : vc.form.IsOpen ∧ vc.addPlayerView.saveButtonIsEnabled = true
    · rw [handle, if_pos haccepted] at h
      obtain ⟨reply, hafter⟩ := tapOnSave_eq_ok h
      exact ⟨reply, by rw [hafter, screenAfter, if_pos haccepted]⟩
    · rw [handle, if_neg haccepted] at h
      cases h
      exact ⟨.done, by rw [screenAfter, if_neg haccepted]⟩
  | commitDelete row write =>
    by_cases hrow : row < vc.players.length
    · rw [handle, if_pos hrow] at h
      obtain ⟨reply, hafter⟩ := commitDelete_eq_ok h
      exact ⟨reply, by rw [hafter, screenAfter, if_pos hrow]⟩
    · rw [handle, if_neg hrow] at h
      cases h
      exact ⟨.done, by rw [screenAfter, if_neg hrow]⟩
  | type text =>
    by_cases hopen : vc.form.IsOpen
    · rw [handle, if_pos hopen] at h
      cases h
      exact ⟨.done, by rw [screenAfter, if_pos hopen]⟩
    · rw [handle, if_neg hopen] at h
      cases h
      exact ⟨.done, by rw [screenAfter, if_neg hopen]⟩
  | didSelectRace row =>
    by_cases hopen : vc.form.IsOpen
    · rw [handle, if_pos hopen] at h
      cases h
      exact ⟨.done, by rw [screenAfter, if_pos hopen]⟩
    · rw [handle, if_neg hopen] at h
      cases h
      exact ⟨.done, by rw [screenAfter, if_neg hopen]⟩
  | _ =>
    cases h
    exact ⟨.done, rfl⟩

end PlayersViewController

/-- The event finds nothing to save or to delete. -/
def PlayersViewController.Idle (vc : PlayersViewController) : PlayersEvent → Prop
  | .tapOnSave _ => ¬ (vc.form.IsOpen ∧ vc.addPlayerView.saveButtonIsEnabled = true)
  | .commitDelete row _ => vc.players[row]? = none
  | _ => True

/-- An event leaves the provider alone, or it saves the player of the form, or it
    deletes the player of a row. -/
theorem PlayersViewController.handle_eq_ok {π : Type} [DataProviding π] [LawfulProvider π]
    {count : String → Nat} {vc : PlayersViewController} {provider : π}
    (hready : LawfulProvider.Ready provider) {event : PlayersEvent}
    {after : PlayersViewController × π} (h : vc.handle count provider event = .ok after) :
    (after.2 = provider ∧ vc.Idle event) ∨
      (∃ write, event = .tapOnSave write ∧
        (vc.form.IsOpen ∧ vc.addPlayerView.saveButtonIsEnabled = true) ∧
        vc.addPlayerView.playerResult.name ∉ LawfulProvider.contents provider ∧
        LawfulProvider.Ready after.2 ∧
        LawfulProvider.contents after.2 = write.choose (LawfulProvider.contents provider)
          ((LawfulProvider.contents provider).insert vc.addPlayerView.playerResult.name
            ⟨vc.addPlayerView.playerResult.race, .empty⟩)) ∨
      (∃ row write player, event = .commitDelete row write ∧ vc.players[row]? = some player ∧
        LawfulProvider.Ready after.2 ∧
        LawfulProvider.contents after.2 = write.choose (LawfulProvider.contents provider)
          ((LawfulProvider.contents provider).erase player.name)) := by
  cases event with
  | type text =>
    left
    refine ⟨?_, trivial⟩
    simp only [handle] at h
    split at h <;> cases h <;> rfl
  | didSelectRace row =>
    left
    refine ⟨?_, trivial⟩
    simp only [handle] at h
    split at h <;> cases h <;> rfl
  | tapOnSave write =>
    by_cases haccepted : vc.form.IsOpen ∧ vc.addPlayerView.saveButtonIsEnabled = true
    · right
      left
      rw [handle, if_pos haccepted] at h
      by_cases hmem : vc.addPlayerView.playerResult.name ∈ LawfulProvider.contents provider
      · rw [tapOnSave_existing hready hmem] at h
        cases h
      · obtain ⟨vc', provider', hsave, -, -, -, hready', hcontents⟩ :=
          tapOnSave_fresh hready hmem write
        rw [hsave] at h
        cases h
        exact ⟨write, rfl, haccepted, hmem, hready', hcontents⟩
    · left
      rw [handle, if_neg haccepted] at h
      cases h
      exact ⟨rfl, haccepted⟩
  | addPlayerButtonTapped =>
    left
    cases h
    exact ⟨rfl, trivial⟩
  | tappedOnBackground =>
    left
    cases h
    exact ⟨rfl, trivial⟩
  | commitDelete row write =>
    by_cases hrow : row < vc.players.length
    · right
      right
      have hget : vc.players[row]? = some (vc.players.get ⟨row, hrow⟩) :=
        List.getElem?_eq_getElem hrow
      rw [handle, if_pos hrow] at h
      obtain ⟨provider', reply, hdelete, hready', hcontents⟩ := commitDelete_eq hready hget write
      rw [hdelete] at h
      cases h
      exact ⟨row, write, _, rfl, hget, hready', hcontents⟩
    · left
      rw [handle, if_neg hrow] at h
      cases h
      exact ⟨rfl, List.getElem?_eq_none (Nat.le_of_not_lt hrow)⟩
  | unblurCompleted =>
    left
    cases h
    exact ⟨rfl, trivial⟩

end W3Stats

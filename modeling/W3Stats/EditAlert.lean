import W3Stats.App
import W3Stats.DecimalText
import W3Stats.StatsOverflow

/-!
# The edit alert

A long press on a counter opens an alert with its value in a text field.  The
delegate of the field looks only at the replacement string of an edit, never at
the text it makes, and the Save action reads the text with `Int(text)`.  The text
starts as the digits of the counter and every edit splices digits into it, so
what Save can read is a number that is not negative.
-/

namespace W3Stats

open StepMachine

def Race.displayableValue : Race → String
  | .human => "Human"
  | .elf => "Elf"
  | .orc => "Orc"
  | .undead => "Undead"

def getWinStringFrom : ResultType → String
  | .win => "wins"
  | .lose => "losses"

/-! ### The text field -/

structure NSRange where
  location : Nat
  length : Nat
deriving DecidableEq, Repr

/-- `textField(_:shouldChangeCharactersIn:replacementString:)`. -/
def shouldChangeCharactersIn (_range : NSRange) (string : String) : Bool :=
  let aSet := fun c : Char => !"0123456789".toList.contains c
  let compSepByCharInSet := string.toList.splitOnP aSet
  let numberFiltered := String.ofList compSepByCharInSet.flatten
  string == numberFiltered

/-- The text with the replacement in place of a range.  An `NSRange` counts UTF-16
    units, which are the characters of an ASCII text. -/
def replaceCharacters (range : NSRange) (string text : String) : String :=
  .ofList (text.toList.take range.location ++ string.toList ++
    text.toList.drop (range.location + range.length))

/-- Splitting at the characters of a set and joining the pieces leaves the others. -/
theorem flatten_splitOnP {α : Type*} (p : α → Bool) (l : List α) :
    (l.splitOnP p).flatten = l.filter fun a => !p a := by
  induction l with
  | nil => rfl
  | cons a l ih =>
    rw [List.splitOnP_cons_eq_if_modifyHead]
    rcases hsplit : l.splitOnP p with _ | ⟨piece, pieces⟩
    · exact absurd hsplit (List.splitOnP_ne_nil p l)
    · rw [hsplit] at ih
      by_cases ha : p a = true
      · simp [ha, ← ih]
      · simp [ha, ← ih]

theorem toList_numbers :
    "0123456789".toList = ['0', '1', '2', '3', '4', '5', '6', '7', '8', '9'] := rfl

theorem contains_numbers (c : Char) : "0123456789".toList.contains c = c.isDigit := by
  rw [Bool.eq_iff_iff, List.contains_iff_mem, toList_numbers]
  constructor
  · intro h
    simp only [List.mem_cons, List.not_mem_nil, or_false] at h
    rcases h with rfl | rfl | rfl | rfl | rfl | rfl | rfl | rfl | rfl | rfl <;> rfl
  · intro h
    obtain ⟨hlow, hhigh⟩ := Char.isDigit_iff_toNat.mp h
    have hmem : ∀ n, n < 58 → 48 ≤ n →
        Char.ofNat n ∈ ['0', '1', '2', '3', '4', '5', '6', '7', '8', '9'] := by
      decide
    have hdigit := hmem c.toNat (Nat.lt_succ_of_le hhigh) hlow
    rwa [Char.ofNat_toNat] at hdigit

/-- The delegate lets exactly the replacements of digits through. -/
theorem shouldChangeCharactersIn_iff (range : NSRange) (string : String) :
    shouldChangeCharactersIn range string = true ↔ Digits string := by
  unfold shouldChangeCharactersIn Digits
  simp only [flatten_splitOnP, beq_iff_eq, contains_numbers, Bool.not_not]
  rw [← String.toList_inj, String.toList_ofList, eq_comm, List.filter_eq_self]

theorem Digits.replaceCharacters {string text : String} (h : Digits text) (h' : Digits string)
    (range : NSRange) : Digits (replaceCharacters range string text) := by
  intro c hc
  rw [W3Stats.replaceCharacters, String.toList_ofList] at hc
  rcases List.mem_append.mp hc with hc | hc
  · rcases List.mem_append.mp hc with hc | hc
    · exact h c (List.mem_of_mem_take hc)
    · exact h' c hc
  · exact h c (List.mem_of_mem_drop hc)

/-! ### The alert -/

/-- An alert that is up: its title, the text of its field, and what its Save action
    captures. -/
structure EditAlert where
  title : String
  text : String
  race : Race
  matchResult : ResultType
deriving DecidableEq, Repr

def StatsViewController.showEditAlertViewControllerForRace (race : Race)
    (matchResult : ResultType) (vc : StatsViewController) : Option EditAlert :=
  match vc.getCurrentValueFor race matchResult with
  | none => none
  | some currentValue =>
      some ⟨race.displayableValue ++ " " ++ getWinStringFrom matchResult ++ ":",
        currentValue.description, race, matchResult⟩

namespace EditAlert

/-- The user edits the text field, if its delegate agrees. -/
def edit (alert : EditAlert) (range : NSRange) (string : String) : EditAlert :=
  if shouldChangeCharactersIn range string then
    { alert with text := replaceCharacters range string alert.text }
  else alert

def edits (alert : EditAlert) (changes : List (NSRange × String)) : EditAlert :=
  changes.foldl (fun alert change => alert.edit change.1 change.2) alert

/-- The Save action. -/
def save {π : Type} [DataProviding π] (alert : EditAlert) (write : Write)
    (vc : StatsViewController) (provider : π) : Except Trap (StatsViewController × π) :=
  match SwiftInt.ofText alert.text with
  | none => .ok (vc, provider)
  | some newValue => vc.saveNewValue newValue alert.race alert.matchResult write provider

theorem digits_edit {alert : EditAlert} (h : Digits alert.text) (range : NSRange)
    (string : String) : Digits (alert.edit range string).text := by
  unfold edit
  split
  · rename_i hchange
    exact h.replaceCharacters ((shouldChangeCharactersIn_iff range string).mp hchange) range
  · exact h

/-- Whatever the edits, the text stays a text of digits. -/
theorem digits_edits {alert : EditAlert} (h : Digits alert.text)
    (changes : List (NSRange × String)) : Digits (alert.edits changes).text := by
  induction changes generalizing alert with
  | nil => exact h
  | cons change changes ih => exact ih (digits_edit h change.1 change.2)

/-- The edits leave alone which counter the alert was opened for. -/
theorem target_edits (alert : EditAlert) (changes : List (NSRange × String)) :
    (alert.edits changes).race = alert.race ∧
      (alert.edits changes).matchResult = alert.matchResult := by
  induction changes generalizing alert with
  | nil => exact ⟨rfl, rfl⟩
  | cons change changes ih =>
    have hedit : (alert.edit change.1 change.2).race = alert.race ∧
        (alert.edit change.1 change.2).matchResult = alert.matchResult := by
      unfold edit
      split <;> exact ⟨rfl, rfl⟩
    obtain ⟨hrace, hresult⟩ := ih (alert.edit change.1 change.2)
    exact ⟨hrace.trans hedit.1, hresult.trans hedit.2⟩

/-- The alert as it is opened. -/
theorem of_show {vc : StatsViewController} {race : Race} {matchResult : ResultType}
    {alert : EditAlert}
    (h : vc.showEditAlertViewControllerForRace race matchResult = some alert) :
    ∃ currentValue, vc.getCurrentValueFor race matchResult = some currentValue ∧
      alert.text = currentValue.description ∧ alert.race = race ∧
      alert.matchResult = matchResult := by
  unfold StatsViewController.showEditAlertViewControllerForRace at h
  rcases hvalue : vc.getCurrentValueFor race matchResult with _ | currentValue
  · rw [hvalue] at h
    cases h
  · rw [hvalue] at h
    cases h
    exact ⟨currentValue, rfl, rfl, rfl, rfl⟩

theorem exists_show {vc : StatsViewController} {player : Player} (hplayer : vc.player = some player)
    (race : Race) (matchResult : ResultType) :
    ∃ opened, vc.showEditAlertViewControllerForRace race matchResult = some opened ∧
      opened.text = (player.stats.counter matchResult race).description ∧
      opened.race = race ∧ opened.matchResult = matchResult := by
  have hvalue : vc.getCurrentValueFor race matchResult =
      some (player.stats.counter matchResult race) := by
    rw [StatsViewController.getCurrentValueFor, hplayer]
    rfl
  rw [StatsViewController.showEditAlertViewControllerForRace, hvalue]
  exact ⟨_, rfl, rfl, rfl, rfl⟩

/-! ### The Save action -/

/-- The text is one that Save stores: not empty, and its value an `Int`. -/
def IsStorable (text : String) : Prop := text ≠ "" ∧ decimalValue text ≤ 2 ^ 63 - 1

instance (text : String) : Decidable (IsStorable text) := by
  unfold IsStorable
  infer_instance

theorem ofText_of_isStorable {text : String} (h : Digits text) (hstorable : IsStorable text) :
    ∃ newValue, SwiftInt.ofText text = some newValue ∧ newValue.val = decimalValue text := by
  obtain ⟨hne, hle⟩ := hstorable
  have hrange : -2 ^ 63 ≤ (decimalValue text : Int) ∧ (decimalValue text : Int) < 2 ^ 63 :=
    ⟨by omega, by omega⟩
  refine ⟨⟨decimalValue text, hrange.1, hrange.2⟩, ?_, rfl⟩
  rw [SwiftInt.ofText_of_digits h, if_neg hne]
  exact SwiftInt.exactly_eq_some.mpr rfl

theorem ofText_of_not_isStorable {text : String} (h : Digits text)
    (hnot : ¬ IsStorable text) : SwiftInt.ofText text = none := by
  rw [SwiftInt.ofText_of_digits h]
  by_cases hempty : text = ""
  · rw [if_pos hempty]
  · rw [if_neg hempty]
    apply SwiftInt.exactly_of_ge
    by_contra hlt
    exact hnot ⟨hempty, by omega⟩

/-- What Save reads from a text of digits is not negative. -/
theorem nonneg_of_ofText {text : String} (h : Digits text) {newValue : SwiftInt}
    (hvalue : SwiftInt.ofText text = some newValue) : 0 ≤ newValue.val := by
  by_cases hstorable : IsStorable text
  · obtain ⟨value, hsome, hval⟩ := ofText_of_isStorable h hstorable
    rw [hvalue, Option.some.injEq] at hsome
    rw [hsome, hval]
    exact Int.natCast_nonneg _
  · rw [ofText_of_not_isStorable h hstorable] at hvalue
    cases hvalue

end EditAlert

/-- One counter of a player is set, and nothing else of it changes. -/
structure Player.SetTo (player after : Player) (value : Int) (result : ResultType)
    (vsRace : Race) : Prop where
  name : after.name = player.name
  race : after.race = player.race
  counter : ∀ result' vsRace', (after.stats.counter result' vsRace').val =
    if result' = result ∧ vsRace' = vsRace then value
    else (player.stats.counter result' vsRace').val

theorem Player.setTo_setCounter (player : Player) (newValue : SwiftInt) (result : ResultType)
    (race : Race) :
    player.SetTo (player.setCounter newValue result race) newValue.val result race := by
  refine ⟨rfl, rfl, ?_⟩
  intro result' race'
  rw [Player.stats_setCounter, Stats.counter_setCounter, apply_ite SwiftInt.val]

namespace EditAlert

variable {π : Type} [DataProviding π] {alert : EditAlert} {vc : StatsViewController}
  {provider : π}

/-- A text that Save cannot store changes nothing. -/
theorem save_of_not_isStorable (h : Digits alert.text) (hnot : ¬ IsStorable alert.text)
    (write : Write) (vc : StatsViewController) (provider : π) :
    alert.save write vc provider = .ok (vc, provider) := by
  simp only [save, ofText_of_not_isStorable h hnot]

/-- Without a player there is nothing to set. -/
theorem save_of_no_player (hplayer : vc.player = none) (alert : EditAlert) (write : Write)
    (provider : π) : alert.save write vc provider = .ok (vc, provider) := by
  unfold save
  rcases SwiftInt.ofText alert.text with _ | newValue
  · rfl
  · simp only [StatsViewController.saveNewValue, hplayer]

/-- A text that Save stores sets the counter the alert was opened for, whatever the
    display does then. -/
theorem save_of_isStorable [LawfulProvider π] (h : Digits alert.text)
    (hstorable : IsStorable alert.text) {player : Player} (hplayer : vc.player = some player)
    (hready : LawfulProvider.Ready provider) (write : Write) :
    ∃ after provider', player.SetTo after (decimalValue alert.text) alert.matchResult alert.race ∧
      LawfulProvider.Ready provider' ∧
      LawfulProvider.contents provider' = write.choose (LawfulProvider.contents provider)
        ((LawfulProvider.contents provider).insert player.name after.record) ∧
      alert.save write vc provider = do
        let display ← after.display
        return ({ vc with player := some after, display := some display,
                          alerts := vc.alerts ++ write.updateAlerts }, provider') := by
  obtain ⟨newValue, hvalue, hval⟩ := ofText_of_isStorable h hstorable
  obtain ⟨provider', hready', hcontents, hupdate⟩ := StatsViewController.updateAndShow_eq hready
    (player.setCounter newValue alert.matchResult alert.race) write vc
  refine ⟨_, provider', hval ▸ player.setTo_setCounter newValue alert.matchResult alert.race,
    hready', hcontents, ?_⟩
  simp only [save, hvalue]
  rw [StatsViewController.saveNewValue_of_some hplayer, hupdate]

/-- Save in an alert as it was opened stores the player held, unchanged. -/
theorem save_of_show {player : Player} (hplayer : vc.player = some player)
    (hnonneg : player.stats.Nonneg) {race : Race} {matchResult : ResultType}
    (h : vc.showEditAlertViewControllerForRace race matchResult = some alert) (write : Write)
    (provider : π) :
    alert.save write vc provider = vc.updateAndShow player write provider := by
  obtain ⟨opened, hopened, htext, hrace, hresult⟩ := exists_show hplayer race matchResult
  rw [h, Option.some.injEq] at hopened
  subst hopened
  have hsame : player.setCounter (player.stats.counter matchResult race) matchResult race =
      player := by
    rw [Player.setCounter, Stats.setCounter_counter]
  have hvalue : SwiftInt.ofText alert.text = some (player.stats.counter matchResult race) := by
    rw [htext]
    exact SwiftInt.ofText_description (hnonneg matchResult race)
  simp only [save, hvalue, hrace, hresult]
  rw [StatsViewController.saveNewValue_of_some hplayer, hsame]

end EditAlert

/-! ### The alert over the app -/

structure EditingApp (π : Type) where
  app : App π
  /-- The alert that is up. -/
  editAlert : Option EditAlert
deriving DecidableEq

inductive EditingEvent where
  /-- What can happen without the alert. -/
  | app (event : AppEvent)
  /-- A long press on the wins or the losses of a race. -/
  | onLongPress (race : Race) (matchResult : ResultType)
  | edit (range : NSRange) (string : String)
  | tapOnCancel
  | tapOnSave (write : Write)
deriving DecidableEq, Repr

def StatsEvent.isEdit : StatsEvent → Bool
  | .saveNewValue _ _ _ _ => true
  | _ => false

namespace EditingApp

variable {π : Type} [DataProviding π]

def launch (provider : π) : EditingApp π := ⟨.launch provider, none⟩

/-- What an event is to the app.  A value is edited through the alert only, and under
    the alert the user reaches nothing else: animations complete and blocks run, but
    no screen is presented or dismissed. -/
def heard (s : EditingApp π) : AppEvent → Option AppEvent
  | .stats event =>
      if event.isCompletion ∨ (s.editAlert = none ∧ event.isEdit = false) then some (.stats event)
      else none
  | .runBlock position obeyed => some (.runBlock position (obeyed && s.editAlert.isNone))
  | event => if s.editAlert = none then some event else none

def step (count : String → Nat) (s : EditingApp π) : EditingEvent → Except Trap (EditingApp π)
  | .app event =>
      match s.heard event with
      | none => .ok s
      | some event => do
          let app ← s.app.step count event
          return { s with app }
  | .onLongPress race matchResult =>
      if s.app.presented = none ∧ s.editAlert = none then
        .ok { s with
          editAlert := s.app.stats.showEditAlertViewControllerForRace race matchResult }
      else .ok s
  | .edit range string =>
      .ok { s with editAlert := s.editAlert.map fun alert => alert.edit range string }
  | .tapOnCancel => .ok { s with editAlert := none }
  | .tapOnSave write =>
      match s.editAlert with
      | none => .ok s
      | some alert => do
          let (stats, provider) ← alert.save write s.app.stats s.app.provider
          return ⟨{ s.app with stats, provider }, none⟩

/-! ### Counters that are not negative -/

open StatsOperation (Counts onePlayer ready_onePlayer)

theorem counts_did [LawfulProvider π] {app app' : App π} {event : AppEvent}
    (h : Counts (app.stats, app.provider)) (hdid : App.Did app event app') :
    Counts (app'.stats, app'.provider) := by
  cases hdid with
  | quiet idle provider player =>
    refine ⟨provider ▸ h.ready, provider ▸ h.stored, ?_⟩
    intro player' hplayer'
    exact h.held player' (player ▸ hplayer')
  | updated uncovered player sets updated => exact h.updated player sets updated
  | saved top accepted fresh ready' stored' stats presented =>
    refine ⟨ready', ?_, ?_⟩
    · rw [stored']
      exact Write.choose_of h.stored (h.stored.insert ⟨_, _, .empty⟩ Stats.nonneg_empty) _
    · rw [stats]
      exact h.held
  | deleted top listedAt ready' stored' stats presented =>
    refine ⟨ready', ?_, ?_⟩
    · rw [stored']
      exact Write.choose_of h.stored (h.stored.erase _) _
    · rw [stats]
      exact h.held
  | selected player shown provider =>
    refine ⟨provider ▸ h.ready, provider ▸ h.stored, ?_⟩
    intro player' hplayer'
    rw [player] at hplayer'
    exact h.loadPlayer hplayer'

/-- No counter is negative, and the alert that is up holds digits. -/
structure Sound [LawfulProvider π] (s : EditingApp π) : Prop where
  counts : Counts (s.app.stats, s.app.provider)
  digits : ∀ alert, s.editAlert = some alert → Digits alert.text

variable [LawfulProvider π] {s t : EditingApp π}

theorem Sound.heard {count : String → Nat} (h : Sound s) {event : AppEvent} {app' : App π}
    (happ : s.app.step count event = .ok app') : Sound { s with app := app' } :=
  ⟨counts_did h.counts (App.did_of_step h.counts.ready happ), h.digits⟩

theorem Sound.onLongPress (h : Sound s) (race : Race) (matchResult : ResultType) :
    Sound { s with
      editAlert := s.app.stats.showEditAlertViewControllerForRace race matchResult } := by
  refine ⟨h.counts, ?_⟩
  intro alert halert
  obtain ⟨currentValue, hvalue, htext, -, -⟩ := EditAlert.of_show halert
  obtain ⟨player, hplayer, rfl⟩ := Option.map_eq_some_iff.mp hvalue
  rw [htext]
  exact digits_description (h.counts.held player hplayer matchResult race)

theorem Sound.tapOnSave (h : Sound s) {alert : EditAlert} (halert : s.editAlert = some alert)
    {write : Write} {after : StatsViewController × π}
    (hsave : alert.save write s.app.stats s.app.provider = .ok after) : Counts after := by
  unfold EditAlert.save at hsave
  rcases hvalue : SwiftInt.ofText alert.text with _ | newValue
  · rw [hvalue] at hsave
    cases hsave
    exact h.counts
  · rw [hvalue] at hsave
    have hnonneg := EditAlert.nonneg_of_ofText (h.digits alert halert) hvalue
    have hhandle : s.app.stats.handle s.app.provider
        (.saveNewValue ⟨newValue, hnonneg⟩ alert.race alert.matchResult write) = .ok after := hsave
    exact h.counts.handle hhandle

theorem Sound.step {count : String → Nat} (h : Sound s) {event : EditingEvent}
    (ht : s.step count event = .ok t) : Sound t := by
  cases event with
  | app event =>
    simp only [EditingApp.step] at ht
    rcases hheard : s.heard event with _ | event'
    · rw [hheard] at ht
      cases ht
      exact h
    · rw [hheard] at ht
      obtain ⟨app', happ, ht⟩ := bind_eq_ok.mp ht
      cases ht
      exact h.heard happ
  | onLongPress race matchResult =>
    simp only [EditingApp.step] at ht
    split at ht
    · cases ht
      exact h.onLongPress race matchResult
    · cases ht
      exact h
  | edit range string =>
    cases ht
    refine ⟨h.counts, ?_⟩
    intro alert halert
    obtain ⟨alert', halert', rfl⟩ := Option.map_eq_some_iff.mp halert
    exact EditAlert.digits_edit (h.digits alert' halert') range string
  | tapOnCancel =>
    cases ht
    refine ⟨h.counts, ?_⟩
    intro alert halert
    cases halert
  | tapOnSave write =>
    simp only [EditingApp.step] at ht
    rcases halert : s.editAlert with _ | alert
    · rw [halert] at ht
      cases ht
      exact h
    · rw [halert] at ht
      obtain ⟨after, hsave, ht⟩ := bind_eq_ok.mp ht
      cases ht
      refine ⟨h.tapOnSave halert hsave, ?_⟩
      intro alert' halert'
      cases halert'

theorem sound_launch {provider : π} (hready : LawfulProvider.Ready provider)
    (hstored : (LawfulProvider.contents provider).Nonneg) : Sound (launch provider) := by
  refine ⟨⟨hready, hstored, ?_⟩, ?_⟩
  · intro player hplayer
    cases hplayer
  · intro alert halert
    cases halert

/-- **What the edit alert stores.**  Whatever the edits, the text is one of digits;
    Save sets exactly the counter the alert was opened for to the number it spells,
    and nothing at all when the text is empty or that number no `Int`.  So no run of
    the app stores a negative counter. -/
theorem editAlert_sets_counter :
    (∀ (vc : StatsViewController) (player : Player) (race : Race) (matchResult : ResultType)
        (changes : List (NSRange × String)), vc.player = some player →
      0 ≤ (player.stats.counter matchResult race).val →
      ∃ opened, vc.showEditAlertViewControllerForRace race matchResult = some opened ∧
        opened.text = (player.stats.counter matchResult race).description ∧
        Digits (opened.edits changes).text ∧
        ∀ (vc' : StatsViewController) (realm : Realm) (write : Write), realm.Ready →
          (∀ held, vc'.player = some held → EditAlert.IsStorable (opened.edits changes).text →
            ∃ after realm',
              held.SetTo after (decimalValue (opened.edits changes).text) matchResult race ∧
              realm'.Ready ∧
              realm'.contents = write.choose realm.contents
                (realm.contents.insert held.name after.record) ∧
              (opened.edits changes).save write vc' realm = do
                let display ← after.display
                return ({ vc' with player := some after, display := some display,
                                   alerts := vc'.alerts ++ write.updateAlerts }, realm')) ∧
          (vc'.player = none ∨ ¬ EditAlert.IsStorable (opened.edits changes).text →
            (opened.edits changes).save write vc' realm = .ok (vc', realm))) ∧
    ∀ (count : String → Nat) (realm : Realm), realm.Ready → realm.contents.Nonneg →
      ∀ t, Reachable (step count) (launch realm) t → t.app.provider.contents.Nonneg := by
  constructor
  · intro vc player race matchResult changes hplayer hnonneg
    obtain ⟨opened, hshow, htext, hopened⟩ := EditAlert.exists_show hplayer race matchResult
    have hdigits : Digits (opened.edits changes).text := by
      apply EditAlert.digits_edits
      rw [htext]
      exact digits_description hnonneg
    have htarget := opened.target_edits changes
    rw [hopened.1, hopened.2] at htarget
    refine ⟨opened, hshow, htext, hdigits, ?_⟩
    intro vc' realm write hready
    constructor
    · intro held hheld hstorable
      have hlawful : LawfulProvider.Ready realm := hready
      obtain ⟨after, realm', hset, hready', hcontents, hsave⟩ :=
        EditAlert.save_of_isStorable hdigits hstorable hheld hlawful write
      rw [htarget.1, htarget.2] at hset
      exact ⟨after, realm', hset, hready', hcontents, hsave⟩
    · intro hnothing
      rcases hnothing with hnone | hnot
      · exact EditAlert.save_of_no_player hnone _ write realm
      · exact EditAlert.save_of_not_isStorable hdigits hnot write vc' realm
  · intro count realm hready hstored t ht
    have hstep : ∀ (s : EditingApp Realm) event u, Sound s → step count s event = .ok u →
        Sound u := by
      intro s event u h hu
      exact h.step hu
    exact (ht.preserves hstep (sound_launch hready hstored)).counts.stored

/-- The wins of a new player are replaced by two digits; a sign typed before them is
    refused. -/
theorem editAlert_sets_counter_abc :
    (∃ opened after realm', StatsViewController.showEditAlertViewControllerForRace .human .win
          { StatsViewController.initial with player := some ⟨"abc", .human, .empty⟩ } =
        some opened ∧
      Player.SetTo ⟨"abc", .human, .empty⟩ after 12 .win .human ∧
      realm'.contents = onePlayer.contents.insert "abc" after.record ∧
      (opened.edits [(⟨0, 1⟩, "12"), (⟨0, 0⟩, "-")]).save .succeeds
          { StatsViewController.initial with player := some ⟨"abc", .human, .empty⟩ } onePlayer =
        do
          let display ← after.display
          return ({ StatsViewController.initial with
            player := some after, display := some display }, realm')) ∧
    (launch onePlayer).app.provider.contents.Nonneg := by
  obtain ⟨hsave, hstored⟩ := editAlert_sets_counter
  constructor
  · obtain ⟨opened, hshow, htext, hdigits, heffect⟩ := hsave
      { StatsViewController.initial with player := some ⟨"abc", .human, .empty⟩ }
      ⟨"abc", .human, .empty⟩ .human .win [(⟨0, 1⟩, "12"), (⟨0, 0⟩, "-")] rfl (by decide)
    have hopened : (opened.edits [(⟨0, 1⟩, "12"), (⟨0, 0⟩, "-")]).text = "12" := by
      cases hshow
      decide +kernel
    obtain ⟨after, realm', hset, -, hcontents, heq⟩ :=
      (heffect { StatsViewController.initial with player := some ⟨"abc", .human, .empty⟩ }
        onePlayer .succeeds ready_onePlayer.1).1 _ rfl (by rw [hopened]; decide +kernel)
    have hvalue : decimalValue "12" = 12 := by decide +kernel
    rw [hopened, hvalue] at hset
    exact ⟨opened, after, realm', hshow, hset, hcontents, heq⟩
  · exact hstored String.length onePlayer ready_onePlayer.1 ready_onePlayer.2 _ ⟨[], rfl⟩

end EditingApp

end W3Stats

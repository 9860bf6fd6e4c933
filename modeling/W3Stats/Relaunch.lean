import W3Stats.Crashes
import W3Stats.Sessions

/-!
# The app started again

The process may end at any time, by a trap of a handler or between two of them,
and the app is launched again over the Realm file.  What is stored then is the
replay of every session before.  A record that cannot be shown stays as it is
through all of them and ends each session that selects it.
-/

namespace W3Stats

open Sessions

/-- The Realm a new process opens: a transaction that was not committed is gone. -/
def Realm.reopened (realm : Realm) : Realm := .opened (realm.beforeWrite.getD realm.group)

theorem Realm.reopened_of_ready {realm : Realm} (h : realm.Ready) : realm.reopened = realm := by
  obtain ⟨group, beforeWrite⟩ := realm
  have hidle : beforeWrite = none := h.idle
  subst hidle
  rfl

/-- The app on a device. -/
def device (count : String → Nat) : Machine (App Realm) AppEvent Trap Realm where
  step := App.step count
  left := App.storeAfter
  stored := App.provider
  start := fun realm => App.launch realm.reopened

namespace App

variable {count : String → Nat} {app : App Realm} {realm : Realm}

/-- The store of a device that is not running the app. -/
structure Launchable (realm : Realm) : Prop where
  ready : realm.Ready
  nonneg : realm.contents.Nonneg

theorem counts_start (h : Launchable realm) : (launch realm.reopened).Counts := by
  rw [Realm.reopened_of_ready h.ready]
  exact counts_launch h.ready h.nonneg

theorem counts_of_sessions (count : String → Nat) (h : Launchable realm)
    (signals : List (Signal AppEvent)) :
    ((device count).sessions (.down realm) signals).Holds Counts Launchable := by
  apply Machine.sessions_preserve (C := fun _ _ => True)
  · intro app event app' hcounts _ hstep
    exact EditingApp.counts_did hcounts (did_of_step hcounts.ready hstep)
  · intro app event trap hcounts _ _
    obtain ⟨hready, hnonneg⟩ := counts_storeAfter hcounts count event
    exact ⟨hready, hnonneg⟩
  · intro app hcounts
    exact ⟨hcounts.ready, hcounts.stored⟩
  · intro realm hlaunch
    exact counts_start hlaunch
  · exact h
  · exact Machine.allEvents_of_mem (fun _ _ _ => trivial) _

/-! ### Traps in every session -/

/-- **What can end a session.**  Whatever was done in the sessions before, and however
    each of them ended, a handler traps in the four ways of `Crashes` and in no
    other. -/
theorem sessions_step_eq_error_iff (count : String → Nat) (realm : Realm)
    (hlaunch : Launchable realm) (signals : List (Signal AppEvent)) {app : App Realm}
    (hup : (device count).sessions (.down realm) signals = .up app) (event : AppEvent)
    (trap : Trap) : app.step count event = .error trap ↔ app.Crashes event trap := by
  have hholds := counts_of_sessions count hlaunch signals
  rw [hup] at hholds
  exact step_eq_error_iff hholds count event trap

theorem nonneg_empty : PlayerMap.Nonneg ∅ := by
  intro name record hlookup
  cases hlookup

theorem launchable_empty : Launchable (Realm.opened Group.empty) :=
  ⟨Realm.ready_empty, nonneg_empty⟩

/-- What two edits that the alert accepts leave stored. -/
def pastMax : Player :=
  (Player.setCounter ⟨"abc", .human, .empty⟩ .max .win .human).setCounter 1 .lose .human

def pastMaxStore : Realm :=
  .opened (Group.empty.withRows pastMax [Group.empty.rowFor pastMax])

theorem launchable_pastMaxStore : Launchable pastMaxStore := by
  have hrep := Group.represents_empty.append pastMax
  refine ⟨Realm.ready_of_represents hrep (by simp), ?_⟩
  have hcontents : pastMaxStore.contents = (∅ : PlayerMap).insert pastMax.name pastMax.record :=
    Realm.contents_opened hrep
  rw [hcontents]
  apply nonneg_empty.insert pastMax
  apply Stats.Nonneg.setCounter ?_ (by decide)
  exact Stats.nonneg_empty.setCounter (by decide) .win .human

/-- The row of the player is tapped in the second session. -/
def tapsInSecondSession : List (Signal AppEvent) :=
  [.start, .stop, .start, .event (.runBlock 0 true), .event (.didSelectRow 0)]

theorem sessions_step_eq_error_iff_pastMax :
    ∃ app, (device String.length).sessions (.down pastMaxStore) tapsInSecondSession = .up app ∧
      (app.step String.length (.runBlock 0 true) = .error .arithmeticOverflow ↔
        app.Crashes (.runBlock 0 true) .arithmeticOverflow) := by
  refine ⟨_, rfl, ?_⟩
  exact sessions_step_eq_error_iff String.length pastMaxStore launchable_pastMaxStore
    tapsInSecondSession rfl _ _

/-! ### The store is the replay of every session -/

/-- The history after one more event: its action is in it as far as it was stored. -/
def storeAction (actions : List PlayerAction) (app : App Realm) (event : AppEvent) :
    List PlayerAction := actions ++ (app.storedAction? event).toList

/-- The actions of all sessions, as far as they were stored. -/
def storedHistory (count : String → Nat) (realm : Realm) (signals : List (Signal AppEvent)) :
    List PlayerAction :=
  (device count).account storeAction [] (.down realm) signals

/-- The invariant of a session, and of the store between two of them. -/
structure ReplayedUp (initial : String → Option Score) (actions : List PlayerAction)
    (app : App Realm) : Prop where
  counts : app.Counts
  replayed : Replayed initial actions app

structure ReplayedDown (initial : String → Option Score) (actions : List PlayerAction)
    (store : Realm) : Prop where
  launchable : Launchable store
  replayed : ∀ name, store.contents.score name = scoreAfter name (initial name) actions

variable {initial : String → Option Score} {actions : List PlayerAction} {event : AppEvent}

theorem ReplayedUp.step {app' : App Realm} (h : ReplayedUp initial actions app)
    (hwrite : event.write? ≠ some .fails) (hstep : app.step count event = .ok app') :
    ReplayedUp initial (storeAction actions app event) app' := by
  refine ⟨EditingApp.counts_did h.counts (did_of_step h.counts.ready hstep), ?_⟩
  rw [storeAction, storedAction?_of_ok h.counts hstep]
  exact h.replayed.step hwrite hstep

/-- Whether the event went on or trapped. -/
theorem ReplayedUp.storeAfter (h : ReplayedUp initial actions app)
    (hwrite : event.write? ≠ some .fails) (count : String → Nat) :
    ReplayedDown initial (storeAction actions app event) (app.storeAfter event) := by
  obtain ⟨hready, hnonneg⟩ := counts_storeAfter h.counts count event
  refine ⟨⟨hready, hnonneg⟩, ?_⟩
  intro name
  have hscore := score_storeAfter h.counts h.replayed.inSync hwrite count name
  rw [h.replayed.replayed name] at hscore
  rw [storeAction, scoreAfter, List.foldl_append]
  exact hscore

theorem ReplayedUp.stored (h : ReplayedUp initial actions app) :
    ReplayedDown initial actions app.provider :=
  ⟨⟨h.counts.ready, h.counts.stored⟩, h.replayed.replayed⟩

theorem ReplayedDown.start {store : Realm} (h : ReplayedDown initial actions store) :
    ReplayedUp initial actions (launch store.reopened) := by
  refine ⟨counts_start h.launchable, ?_⟩
  rw [Realm.reopened_of_ready h.launchable.ready]
  have hlaunch : Replayed store.contents.score [] (launch store) :=
    replayed_launch h.launchable.ready
  exact ⟨hlaunch.ready, hlaunch.inSync, h.replayed⟩

/-- **No session loses what another stored.**  As long as no write fails, what is stored
    is the replay of all that was done in every session, however the sessions ended.
    The update whose handler traps is in it, unless it trapped before it wrote. -/
theorem counters_of_sessions (count : String → Nat) (realm : Realm) (hlaunch : Launchable realm)
    (signals : List (Signal AppEvent))
    (hwrites : ∀ event, .event event ∈ signals → event.write? ≠ some .fails) (name : String) :
    (RealmDataProvider.loadPlayer name ((device count).kept
        ((device count).sessions (.down realm) signals))).map Player.score =
      scoreAfter name ((RealmDataProvider.loadPlayer name realm).map Player.score)
        (storedHistory count realm signals) := by
  have hend : ((device count).sessions (.down realm) signals).Holds
      (ReplayedUp realm.contents.score (storedHistory count realm signals))
      (ReplayedDown realm.contents.score (storedHistory count realm signals)) := by
    apply Machine.sessions_account (m := device count)
      (C := fun _ event => event.write? ≠ some .fails)
    · intro actions app event app' h hwrite hstep
      exact h.step hwrite hstep
    · intro actions app event trap h hwrite _
      exact h.storeAfter hwrite count
    · intro actions app h
      exact h.stored
    · intro actions store h
      exact h.start
    · exact ⟨hlaunch, fun name => rfl⟩
    · exact Machine.allEvents_of_mem (fun _ event hevent => hwrites event hevent) _
  have hkept : ReplayedDown realm.contents.score (storedHistory count realm signals)
      ((device count).kept ((device count).sessions (.down realm) signals)) := by
    rcases hphase : (device count).sessions (.down realm) signals with app | store
    · rw [hphase] at hend
      exact ReplayedUp.stored hend
    · rw [hphase] at hend
      exact hend
  rw [RealmDataProvider.loadPlayer_eq hkept.launchable.ready,
    RealmDataProvider.loadPlayer_eq hlaunch.ready]
  exact hkept.replayed name

theorem nonneg_max : 0 ≤ SwiftInt.max.val := by decide

theorem nonneg_one : 0 ≤ (1 : SwiftInt).val := by decide

/-- A player is added, its wins are set to `Int.max`, the next edit traps after it is
    stored, and in the next session the player is deleted. -/
def editsAndRelaunch : List (Signal AppEvent) :=
  [.start, .event (.runBlock 0 true), .event (.players (.type "abc")),
    .event (.players (.tapOnSave .succeeds)), .event (.didSelectRow 0), .event (.runBlock 0 true),
    .event (.stats (.saveNewValue ⟨.max, nonneg_max⟩ .human .win .succeeds)),
    .event (.stats (.saveNewValue ⟨1, nonneg_one⟩ .human .lose .succeeds)), .start,
    .event (.runBlock 0 true), .event (.players (.commitDelete 0 .succeeds))]

theorem counters_of_sessions_editsAndRelaunch :
    (RealmDataProvider.loadPlayer "abc" ((device String.length).kept
        ((device String.length).sessions (.down (Realm.opened Group.empty))
          editsAndRelaunch))).map Player.score =
      scoreAfter "abc"
        ((RealmDataProvider.loadPlayer "abc" (Realm.opened Group.empty)).map Player.score)
        (storedHistory String.length (Realm.opened Group.empty) editsAndRelaunch) := by
  apply counters_of_sessions String.length _ launchable_empty
  intro event hevent
  simp only [editsAndRelaunch, List.mem_cons, Signal.event.injEq, reduceCtorEq, false_or,
    List.not_mem_nil, or_false] at hevent
  rcases hevent with rfl | rfl | rfl | rfl | rfl | rfl | rfl | rfl | rfl <;> decide

example : storedHistory String.length (Realm.opened Group.empty) editsAndRelaunch =
    [.addNewPlayer "abc" .human, .saveNewValue "abc" (2 ^ 63 - 1) .human .win,
      .saveNewValue "abc" 1 .human .lose, .deletePlayer "abc"] := by
  decide +kernel

/-! ### A record that cannot be shown -/

/-- The record is stored, and its player is not the one held. -/
structure Shelved (player : Player) (app : App Realm) : Prop where
  counts : app.Counts
  stored : app.provider.contents.lookup player.name = some player.record
  notHeld : ∀ held, app.stats.player = some held → held.name ≠ player.name

structure ShelvedDown (player : Player) (store : Realm) : Prop where
  launchable : Launchable store
  stored : store.contents.lookup player.name = some player.record

variable {player : Player}

/-- Selecting the player traps. -/
theorem Shelved.crashes (h : Shelved player app) (hpast : SwiftInt.max.val < player.stats.total)
    {position screen row : Nat} {vc : PlayersViewController} {listed : Player}
    (hblock : app.queue[position]? = some (.selectRow screen row))
    (hscreen : app.screens[screen]? = some vc) (hrow : vc.players[row]? = some listed)
    (hname : listed.name = player.name) (obeyed : Bool) :
    app.Crashes (.runBlock position obeyed) .arithmeticOverflow := by
  have hload : DataProviding.loadPlayer listed.name app.provider = some player := by
    rw [hname, LawfulProvider.loadPlayer_eq player.name app.provider h.counts.ready]
    exact PlayerMap.loadPlayer_eq_some.mpr ⟨rfl, h.stored⟩
  apply Crashes.selected hblock hscreen hrow
  simp only [StatsOperation.TotalFits, StatsOperation.shownTotal, hload]
  omega

/-- No event but a deletion that goes through touches the record. -/
theorem Shelved.step {app' : App Realm} (h : Shelved player app)
    (hpast : SwiftInt.max.val < player.stats.total)
    (hkeeps : app.action? event = some (.deletePlayer player.name) → event.write? = some .fails)
    (hstep : app.step count event = .ok app') : Shelved player app' := by
  have hdid := did_of_step h.counts.ready hstep
  have hcounts := EditingApp.counts_did h.counts hdid
  cases hdid with
  | quiet idle provider heldEq =>
    refine ⟨hcounts, provider ▸ h.stored, ?_⟩
    rw [heldEq]
    exact h.notHeld
  | @updated e app' held value result race write uncovered heldEq sets updated =>
    have hne : player.name ≠ held.name := (h.notHeld held heldEq).symm
    have hinsert : ∀ record, (app.provider.contents.insert held.name record).lookup player.name =
        some player.record := by
      intro record
      rw [Finmap.lookup_insert_of_ne _ hne]
      exact h.stored
    refine ⟨hcounts, ?_, ?_⟩
    · have hstored := updated.stored
      show (LawfulProvider.contents app'.provider).lookup player.name = _
      rw [hstored]
      exact Write.choose_of
        (p := fun map : PlayerMap => map.lookup player.name = some player.record)
        h.stored (hinsert _) write
    · intro held' hheld'
      rw [updated.held] at hheld'
      cases hheld'
      exact hne.symm
  | @saved write app' i vc top accepted fresh ready' stored' stats presented =>
    have hne : player.name ≠ vc.addPlayerView.playerResult.name := by
      intro heq
      apply fresh
      rw [← heq]
      exact Finmap.mem_of_lookup_eq_some h.stored
    refine ⟨hcounts, ?_, ?_⟩
    · show (LawfulProvider.contents app'.provider).lookup player.name = _
      rw [stored']
      apply Write.choose_of
        (p := fun map : PlayerMap => map.lookup player.name = some player.record)
        h.stored
      rw [Finmap.lookup_insert_of_ne _ hne]
      exact h.stored
    · rw [stats]
      exact h.notHeld
  | @deleted row write app' i vc listed top listedAt ready' stored' stats presented =>
    refine ⟨hcounts, ?_, ?_⟩
    · show (LawfulProvider.contents app'.provider).lookup player.name = _
      rw [stored']
      by_cases hname : player.name = listed.name
      · have haction : app.action? (.players (.commitDelete row write)) =
            some (.deletePlayer player.name) := by
          simp only [action?, top, Option.bind_some, listedAt, Option.map_some, hname]
        obtain rfl : write = .fails := Option.some.inj (hkeeps haction)
        exact h.stored
      · apply Write.choose_of
          (p := fun map : PlayerMap => map.lookup player.name = some player.record)
          h.stored
        rw [Finmap.lookup_erase_ne hname]
        exact h.stored
    · rw [stats]
      exact h.notHeld
  | @selected position obeyed app' name loaded shown provider =>
    refine ⟨hcounts, provider ▸ h.stored, ?_⟩
    intro held hheld hname
    obtain ⟨display, hdisplay, -⟩ := shown held hheld
    have hload : DataProviding.loadPlayer name app.provider = some held := loaded.symm.trans hheld
    rw [LawfulProvider.loadPlayer_eq name app.provider h.counts.ready,
      PlayerMap.loadPlayer_eq_some] at hload
    have hrecord : held.record = player.record := by
      have hsame := h.stored
      rw [← hname, hload.1] at hsame
      exact Option.some.inj (hload.2.symm.trans hsame)
    have hstats : held.stats = player.stats := congrArg Record.stats hrecord
    have hnonneg := h.counts.stored name held.record hload.2
    have htraps : held.display = .error .arithmeticOverflow := by
      apply (Player.display_checked hnonneg).error_iff.mpr
      rw [hstats]
      exact ⟨rfl, by omega⟩
    rw [htraps] at hdisplay
    cases hdisplay

/-- Nor does a crash. -/
theorem Shelved.storeAfter (h : Shelved player app) (count : String → Nat) {trap : Trap}
    (hcrash : app.Crashes event trap) : ShelvedDown player (app.storeAfter event) := by
  obtain ⟨hready, hnonneg⟩ := counts_storeAfter h.counts count event
  refine ⟨⟨hready, hnonneg⟩, ?_⟩
  cases hcrash with
  | @updated e takes past =>
    obtain ⟨hupdate, held, hheld⟩ := update_of_past past
    rcases stores_of_update h.counts.ready takes hheld hupdate with
      ⟨hstore, -⟩ | ⟨value, result, race, write, hsets, -, -, hcontents⟩
    · rw [hstore]
      exact h.stored
    · have hne : player.name ≠ held.name := (h.notHeld held hheld).symm
      show (LawfulProvider.contents (app.storeAfter (.stats e))).lookup player.name = _
      rw [hcontents]
      apply Write.choose_of
        (p := fun map : PlayerMap => map.lookup player.name = some player.record)
        h.stored
      rw [Finmap.lookup_insert_of_ne _ hne]
      exact h.stored
  | @saved write screen vc top accepted stored =>
    rw [storeAfter_of_saved h.counts top accepted stored write]
    exact h.stored
  | gone block found gone => exact h.stored
  | selected block found listedAt past => exact h.stored

/-- **A record that cannot be shown is never repaired.**  Once the total of a stored
    player is not an `Int`, its record stays as it is in every later session, until
    a deletion of the player goes through: no handler changes it, the stats screen never
    holds the player, and every selection of it ends the session. -/
theorem shelved_until_deleted (count : String → Nat) (realm : Realm) (hlaunch : Launchable realm)
    (player : Player) (hload : RealmDataProvider.loadPlayer player.name realm = some player)
    (hpast : SwiftInt.max.val < player.stats.total) (signals : List (Signal AppEvent))
    (hkeeps : (device count).AllEvents (fun app event =>
      app.action? event = some (.deletePlayer player.name) → event.write? = some .fails)
      (.down realm) signals) :
    RealmDataProvider.loadPlayer player.name
        ((device count).kept ((device count).sessions (.down realm) signals)) = some player ∧
      ∀ app, (device count).sessions (.down realm) signals = .up app →
        (∀ held, app.stats.player = some held → held.name ≠ player.name) ∧
        ∀ position obeyed screen row vc listed,
          app.queue[position]? = some (.selectRow screen row) → app.screens[screen]? = some vc →
          vc.players[row]? = some listed → listed.name = player.name →
          app.step count (.runBlock position obeyed) = .error .arithmeticOverflow := by
  have hend : ((device count).sessions (.down realm) signals).Holds (Shelved player)
      (ShelvedDown player) := by
    apply Machine.sessions_preserve (m := device count) (C := fun app event =>
      app.action? event = some (.deletePlayer player.name) → event.write? = some .fails)
    · intro app event app' h hevent hstep
      exact h.step hpast hevent hstep
    · intro app event trap h _ htrap
      exact h.storeAfter count ((step_eq_error_iff h.counts count event trap).mp htrap)
    · intro app h
      exact ⟨⟨h.counts.ready, h.counts.stored⟩, h.stored⟩
    · intro store h
      have hsame := Realm.reopened_of_ready h.launchable.ready
      refine ⟨counts_start h.launchable, ?_, ?_⟩
      · show store.reopened.contents.lookup player.name = _
        rw [hsame]
        exact h.stored
      · intro held hheld
        cases hheld
    · refine ⟨hlaunch, ?_⟩
      rw [RealmDataProvider.loadPlayer_eq hlaunch.ready, PlayerMap.loadPlayer_eq_some] at hload
      exact hload.2
    · exact hkeeps
  have hkept : ShelvedDown player
      ((device count).kept ((device count).sessions (.down realm) signals)) := by
    rcases hphase : (device count).sessions (.down realm) signals with app | store
    · rw [hphase] at hend
      have h : Shelved player app := hend
      exact ⟨⟨h.counts.ready, h.counts.stored⟩, h.stored⟩
    · rw [hphase] at hend
      exact hend
  constructor
  · rw [RealmDataProvider.loadPlayer_eq hkept.launchable.ready]
    exact PlayerMap.loadPlayer_eq_some.mpr ⟨rfl, hkept.stored⟩
  · intro app hup
    rw [hup] at hend
    have h : Shelved player app := hend
    refine ⟨h.notHeld, ?_⟩
    intro position obeyed screen row vc listed hblock hscreen hrow hname
    apply (step_eq_error_iff h.counts count _ _).mpr
    exact h.crashes hpast hblock hscreen hrow hname obeyed

/-- The player is selected, which traps; after the next launch its deletion fails, and it is
    selected again. -/
def selectAndRelaunch : List (Signal AppEvent) :=
  [.start, .event (.runBlock 0 true), .event (.didSelectRow 0), .event (.runBlock 0 true), .start,
    .event (.runBlock 0 true), .event (.players (.commitDelete 0 .fails)),
    .event (.didSelectRow 0)]

theorem shelved_until_deleted_pastMax :
    RealmDataProvider.loadPlayer "abc" ((device String.length).kept
        ((device String.length).sessions (.down pastMaxStore) selectAndRelaunch)) = some pastMax ∧
      ∀ app, (device String.length).sessions (.down pastMaxStore) selectAndRelaunch = .up app →
        (∀ held, app.stats.player = some held → held.name ≠ "abc") ∧
        ∀ position obeyed screen row vc listed,
          app.queue[position]? = some (.selectRow screen row) → app.screens[screen]? = some vc →
          vc.players[row]? = some listed → listed.name = "abc" →
          app.step String.length (.runBlock position obeyed) = .error .arithmeticOverflow := by
  apply shelved_until_deleted String.length pastMaxStore launchable_pastMaxStore pastMax
  · rfl
  · decide
  · apply Machine.allEvents_of_mem
    intro app event hevent
    simp only [selectAndRelaunch, List.mem_cons, Signal.event.injEq, reduceCtorEq, false_or,
      List.not_mem_nil, or_false] at hevent
    rcases hevent with rfl | rfl | rfl | rfl | rfl | rfl <;>
      simp [action?, AppEvent.write?, PlayersEvent.write?]

end App

end W3Stats

import W3Stats.RealmRefinesMap
import W3Stats.StatsViewController

/-!
# Overflow on the stats screen

Every handler that shows a record adds up its eight counters, pair by pair, kind
by kind and then all of them.  None of the counters is ever negative, so every
partial sum is at most the grand total and the grand total alone decides whether
a handler traps.  The edit alert checks that one counter fits an `Int`; nothing
checks the total.
-/

namespace W3Stats

open StepMachine

/-- No stored counter is negative. -/
def PlayerMap.Nonneg (map : PlayerMap) : Prop :=
  ∀ name record, map.lookup name = some record → record.stats.Nonneg

theorem PlayerMap.Nonneg.insert {map : PlayerMap} (h : map.Nonneg) (player : Player)
    (hplayer : player.stats.Nonneg) :
    PlayerMap.Nonneg (map.insert player.name player.record) := by
  intro name record hlookup
  by_cases hname : name = player.name
  · subst hname
    rw [Finmap.lookup_insert, Option.some.injEq] at hlookup
    exact hlookup ▸ hplayer
  · rw [Finmap.lookup_insert_of_ne _ hname] at hlookup
    exact h name record hlookup

theorem PlayerMap.Nonneg.erase {map : PlayerMap} (h : map.Nonneg) (key : String) :
    PlayerMap.Nonneg (map.erase key) := by
  intro name record hlookup
  by_cases hname : name = key
  · rw [hname, Finmap.lookup_erase] at hlookup
    cases hlookup
  · rw [Finmap.lookup_erase_ne hname] at hlookup
    exact h name record hlookup

/-! ### Operations on the stats screen -/

/-- An operation on the stats screen: a player is selected, or something happens on
    the screen itself. -/
inductive StatsOperation where
  | updateStatsForPlayer (playerName : String)
  | handle (event : StatsEvent)
deriving DecidableEq, Repr

namespace StatsOperation

variable {π : Type} [DataProviding π]

def step (s : StatsViewController × π) : StatsOperation →
    Except Trap (StatsViewController × π)
  | .updateStatsForPlayer playerName => do
      let vc ← s.1.updateStatsForPlayer playerName s.2
      return (vc, s.2)
  | .handle event => s.1.handle s.2 event

/-- The grand total of the record the operation shows, from the state before it. -/
def shownTotal (s : StatsViewController × π) : StatsOperation → Int
  | .updateStatsForPlayer playerName =>
      match DataProviding.loadPlayer playerName s.2 with
      | none => 0
      | some player => player.stats.total
  | .handle (.saveNewValue newValue race matchResult _) =>
      match s.1.player with
      | none => 0
      | some player =>
          player.stats.total - (player.stats.counter matchResult race).val + newValue.value.val
  | .handle (.addNewMatchResult _ _) =>
      match s.1.player with
      | none => 0
      | some player => player.stats.total + 1
  | .handle _ => 0

/-- The grand total to be shown is an `Int`. -/
def TotalFits (s : StatsViewController × π) (op : StatsOperation) : Prop :=
  shownTotal s op ≤ SwiftInt.max.val

variable [LawfulProvider π]

/-- The provider is ready, and no counter that is stored or held is negative. -/
structure Counts (s : StatsViewController × π) : Prop where
  ready : LawfulProvider.Ready s.2
  stored : (LawfulProvider.contents s.2).Nonneg
  held : ∀ player, s.1.player = some player → player.stats.Nonneg

/-- An update that went as far as the display keeps the counts. -/
theorem Counts.updated {s t : StatsViewController × π} (h : Counts s) {player : Player}
    (hplayer : s.1.player = some player) {event : StatsEvent} {value : SwiftInt}
    {result : ResultType} {race : Race} {write : Write}
    (hsets : event.Sets player value result race write)
    (ht : StatsViewController.Updated (player.setCounter value result race) write s.2 t) :
    Counts t := by
  have hnonneg := h.held player hplayer
  have hvalue : 0 ≤ value.val := by
    cases hsets with
    | saveNewValue newValue race matchResult write => exact newValue.nonneg
    | addNewMatchResult matchResult write hnext =>
      have hcounter := hnonneg matchResult.resultType matchResult.vsRace
      omega
  have hset := hnonneg.setCounter hvalue result race
  refine ⟨ht.ready, ?_, ?_⟩
  · rw [ht.stored]
    exact Write.choose_of h.stored
      (h.stored.insert (player.setCounter value result race) hset) write
  · intro player' hplayer'
    rw [ht.held] at hplayer'
    cases hplayer'
    exact hset

/-- What an event does to the counts, once it went on. -/
theorem Counts.handle {s t : StatsViewController × π} (h : Counts s) {event : StatsEvent}
    (ht : s.1.handle s.2 event = .ok t) : Counts t := by
  rcases StatsViewController.handle_eq_ok h.ready ht with
    ⟨-, hplayer, -, hprovider⟩ |
    ⟨player, value, result, race, write, hplayer, hsets, hupdated⟩
  · refine ⟨hprovider ▸ h.ready, hprovider ▸ h.stored, ?_⟩
    intro player' hplayer'
    exact h.held player' (hplayer ▸ hplayer')
  · exact h.updated hplayer hsets hupdated

theorem Counts.loadPlayer {s : StatsViewController × π} (h : Counts s) {playerName : String}
    {player : Player} (hload : DataProviding.loadPlayer playerName s.2 = some player) :
    player.stats.Nonneg := by
  rw [LawfulProvider.loadPlayer_eq playerName s.2 h.ready, PlayerMap.loadPlayer_eq_some] at hload
  exact h.stored playerName player.record hload.2

theorem Counts.step {s t : StatsViewController × π} (h : Counts s) {op : StatsOperation}
    (ht : step s op = .ok t) : Counts t := by
  cases op with
  | updateStatsForPlayer playerName =>
    obtain ⟨vc', hvc', ht⟩ := bind_eq_ok.mp ht
    cases ht
    refine ⟨h.ready, h.stored, ?_⟩
    intro player hplayer
    rw [(StatsViewController.updateStatsForPlayer_eq_ok hvc').1] at hplayer
    exact h.loadPlayer hplayer
  | handle event => exact h.handle ht

/-! ### What traps -/

/-- Showing a record traps exactly past a grand total of `Int.max`. -/
theorem checked_of_display {α : Type} {player : Player} (h : player.stats.Nonneg)
    (f : Display → α) :
    Checked player.stats.total (fun _ => player.stats.total < 2 ^ 63) (do
      let display ← player.display
      return f display) := by
  refine (Player.display_checked h).bind le_rfl ?_
  intro display hfits
  exact Checked.of_ok hfits

theorem updateAndShow_checked {vc : StatsViewController} {provider : π}
    (hready : LawfulProvider.Ready provider) (player : Player) (h : player.stats.Nonneg)
    (write : Write) :
    Checked player.stats.total (fun _ => player.stats.total < 2 ^ 63)
      (vc.updateAndShow player write provider) := by
  obtain ⟨provider', -, -, heq⟩ := StatsViewController.updateAndShow_eq hready player write vc
  rw [heq]
  exact checked_of_display h _

/-- An operation can only trap on the grand total it shows. -/
theorem step_checked {s : StatsViewController × π} (h : Counts s) (op : StatsOperation) :
    Checked (shownTotal s op) (fun _ => shownTotal s op < 2 ^ 63) (step s op) := by
  obtain ⟨vc, provider⟩ := s
  cases op with
  | updateStatsForPlayer playerName =>
    simp only [StatsOperation.step, shownTotal]
    rcases hload : DataProviding.loadPlayer playerName provider with _ | player
    · rw [StatsViewController.updateStatsForPlayer_of_none hload]
      exact Checked.of_ok (by norm_num)
    · rw [StatsViewController.updateStatsForPlayer_of_some hload, bind_assoc]
      exact checked_of_display (h.loadPlayer hload) _
  | handle event =>
    cases event with
    | addNewMatchResult matchResult write =>
      rcases hplayer : vc.player with _ | player
      · simp only [StatsOperation.step, shownTotal, StatsViewController.handle,
          StatsViewController.addNewMatchResult, hplayer]
        exact Checked.of_ok (by norm_num)
      · simp only [StatsOperation.step, shownTotal, StatsViewController.handle, hplayer]
        rw [StatsViewController.addNewMatchResult_of_some hplayer]
        have hnonneg := h.held player hplayer
        have hcounter := hnonneg matchResult.resultType matchResult.vsRace
        have hle := Stats.counter_le_total hnonneg matchResult.resultType matchResult.vsRace
        refine (SwiftInt.add_checked hcounter (by decide)).bind (by simpa using hle) ?_
        intro value hvalue
        rw [SwiftInt.val_one] at hvalue
        have htotal := Stats.total_setCounter player.stats value matchResult.resultType
          matchResult.vsRace
        have hset := hnonneg.setCounter (v := value) (by omega) matchResult.resultType
          matchResult.vsRace
        refine (updateAndShow_checked h.ready (player.setCounter value matchResult.resultType
          matchResult.vsRace) hset write).bind (by rw [Player.stats_setCounter]; omega) ?_
        intro shown hfits
        rw [Player.stats_setCounter] at hfits
        exact Checked.of_ok (by omega)
    | saveNewValue newValue race matchResult write =>
      rcases hplayer : vc.player with _ | player
      · simp only [StatsOperation.step, shownTotal, StatsViewController.handle,
          StatsViewController.saveNewValue, hplayer]
        exact Checked.of_ok (by norm_num)
      · simp only [StatsOperation.step, shownTotal, StatsViewController.handle, hplayer]
        rw [StatsViewController.saveNewValue_of_some hplayer, ← Stats.total_setCounter]
        exact updateAndShow_checked h.ready _
          ((h.held player hplayer).setCounter newValue.nonneg matchResult race) write
    | addMatchButtonTapped => exact Checked.of_ok (by simp [shownTotal])
    | tappedOnBackground => exact Checked.of_ok (by simp [shownTotal])
    | unblurCompleted => exact Checked.of_ok (by simp [shownTotal])
    | checkmarkCompleted => exact Checked.of_ok (by simp [shownTotal])

/-! ### Whole runs -/

/-- **When no addition overflows.**  From any store whose counters are not negative,
    a run of operations on the stats screen traps on no addition exactly when, at
    each step, the grand total of the record to be shown is an `Int`; and it has no
    other trap. -/
theorem run_ne_overflow_iff (realm : Realm) (hready : realm.Ready)
    (hnonneg : realm.contents.Nonneg) (ops : List StatsOperation) :
    (run step (StatsViewController.initial, realm) ops ≠ .error .arithmeticOverflow ↔
      AllSteps step TotalFits (StatsViewController.initial, realm) ops) ∧
    ∀ trap, run step (StatsViewController.initial, realm) ops = .error trap →
      trap = .arithmeticOverflow := by
  have hstart : Counts (StatsViewController.initial, realm) :=
    ⟨hready, hnonneg, fun player hplayer => by cases hplayer⟩
  have hstep : ∀ (s : StatsViewController × Realm) (op : StatsOperation) t, Counts s →
      step s op = .ok t → Counts t := fun s op t h ht => h.step ht
  constructor
  · refine run_ne_error_iff hstep ?_ hstart
    intro s op h
    rw [(step_checked h op).ne_overflow_iff fun t ht => ht, TotalFits, SwiftInt.val_max]
    omega
  · intro trap htrap
    exact eq_of_run_eq_error hstep (fun s op y h hy => (step_checked h op).error_eq hy) hstart htrap

/-- A store with one player that has won no match and lost none. -/
def onePlayer : Realm :=
  .opened (Group.empty.withRows ⟨"abc", .human, .empty⟩
    [Group.empty.rowFor ⟨"abc", .human, .empty⟩])

theorem ready_onePlayer : onePlayer.Ready ∧ onePlayer.contents.Nonneg := by
  have hrep := Group.represents_empty.append ⟨"abc", .human, .empty⟩
  refine ⟨Realm.ready_of_represents hrep (by decide), ?_⟩
  intro name record hlookup
  have hcontents : onePlayer.contents =
      (∅ : PlayerMap).insert "abc" ⟨.human, .empty⟩ := Realm.contents_opened hrep
  rw [hcontents] at hlookup
  by_cases hname : name = "abc"
  · rw [hname, Finmap.lookup_insert, Option.some.injEq] at hlookup
    exact hlookup ▸ Stats.nonneg_empty
  · rw [Finmap.lookup_insert_of_ne _ hname, Finmap.lookup_empty] at hlookup
    cases hlookup

/-- The losses the edit alert accepts after the wins it accepts. -/
def editsPastMax : List StatsOperation :=
  [.updateStatsForPlayer "abc",
    .handle (.saveNewValue ⟨.max, by decide⟩ .human .win .succeeds),
    .handle (.saveNewValue ⟨1, by decide⟩ .human .lose .succeeds)]

theorem run_ne_overflow_iff_onePlayer :
    (run step (StatsViewController.initial, onePlayer) editsPastMax ≠
        .error .arithmeticOverflow ↔
      AllSteps step TotalFits (StatsViewController.initial, onePlayer) editsPastMax) ∧
    ∀ trap, run step (StatsViewController.initial, onePlayer) editsPastMax = .error trap →
      trap = .arithmeticOverflow :=
  run_ne_overflow_iff onePlayer ready_onePlayer.1 ready_onePlayer.2 editsPastMax

/-- The two edits trap, and the record the second one stored traps again when its
    player is selected. -/
theorem run_ne_overflow_counterexample :
    run step (StatsViewController.initial, onePlayer) editsPastMax =
        .error .arithmeticOverflow ∧
      (∃ realm,
        RealmDataProvider.updatePlayer ((Player.setCounter ⟨"abc", .human, .empty⟩ .max .win
            .human).setCounter 1 .lose .human) .committed onePlayer = .ok (realm, .done) ∧
        StatsViewController.initial.updateStatsForPlayer "abc" realm =
          .error .arithmeticOverflow) ∧
      ¬ ∀ (realm : Realm) (ops : List StatsOperation), realm.Ready → realm.contents.Nonneg →
          run step (StatsViewController.initial, realm) ops ≠ .error .arithmeticOverflow := by
  have htraps : run step (StatsViewController.initial, onePlayer) editsPastMax =
      .error .arithmeticOverflow := by
    decide +kernel
  refine ⟨htraps, ?_, fun h => ?_⟩
  · exact ⟨_, rfl, by decide +kernel⟩
  · exact h onePlayer editsPastMax ready_onePlayer.1 ready_onePlayer.2 htraps

end StatsOperation

end W3Stats

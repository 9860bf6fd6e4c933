import W3Stats.SharedPlayers

/-!
# Runs over shared players

A run of the app over references does what the run over values does.  The one
fact it rests on: in every state, no reference of a listed player is a reference
of the player held.  Loading and adding create new objects, the handlers that
write do so through the player held alone, so the fact is kept.
-/

namespace W3Stats

open StepMachine ObjectHeap

/-! ### The screens as values -/

def SharedStatsViewController.value (heap : List Desc) (vc : SharedStatsViewController) :
    StatsViewController :=
  ⟨vc.player.map (SharedPlayer.value heap), vc.display, vc.form, vc.checkmarkIsHidden,
    vc.pendingCheckmarks, vc.alerts⟩

def SharedPlayersViewController.value (heap : List Desc) (vc : SharedPlayersViewController) :
    PlayersViewController :=
  ⟨vc.players.map (SharedPlayer.value heap), vc.form, vc.addPlayerView, vc.alerts⟩

def SharedApp.value {π : Type} (app : SharedApp π) : App π :=
  ⟨app.provider, app.stats.value app.heap,
    app.screens.map (SharedPlayersViewController.value app.heap), app.presented, app.queue⟩

theorem Created.mono {heap heap' heap'' : List Desc} {player : SharedPlayer}
    (h : Created heap heap' player) (hle : heap'.length ≤ heap''.length) :
    Created heap heap'' player :=
  ⟨h.live.mono hle, h.fresh, h.distinct⟩

/-- A new object is none of those that were there. -/
theorem Created.ne {heap heap' : List Desc} {player : SharedPlayer}
    (h : Created heap heap' player) {ref : Ref} (href : ref < heap.length) (race : Race) :
    ref ≠ player.stats.desc race := by
  have hlt : ref < player.stats.desc race := lt_of_lt_of_le href (h.fresh race)
  exact hlt.ne

/-! ### The stats screen -/

namespace SharedStatsViewController

variable {heap heap' : List Desc} {vc : SharedStatsViewController}

theorem value_of_some {player : SharedPlayer} (hplayer : vc.player = some player) :
    (vc.value heap).player = some (player.value heap) := by
  simp only [value, hplayer, Option.map_some]

theorem value_of_none (hplayer : vc.player = none) : (vc.value heap).player = none := by
  simp only [value, hplayer, Option.map_none]

/-- The heap matters for the player only. -/
theorem value_heap {player : SharedPlayer} (hplayer : vc.player = some player) :
    { vc.value heap with player := some (player.value heap') } = vc.value heap' := by
  simp only [value, hplayer, Option.map_some]

theorem onUpdated_value (reply : Reply) (vc : SharedStatsViewController) :
    (onUpdated reply vc).value heap = StatsViewController.onUpdated reply (vc.value heap) := by
  cases reply <;> rfl

@[simp] theorem player_onUpdated (reply : Reply) (vc : SharedStatsViewController) :
    (onUpdated reply vc).player = vc.player := by
  cases reply <;> rfl

theorem checkmarkCompleted_value (vc : SharedStatsViewController) :
    vc.checkmarkCompleted.value heap = (vc.value heap).checkmarkCompleted := by
  by_cases hpending : vc.pendingCheckmarks = 0
  · simp [checkmarkCompleted, StatsViewController.checkmarkCompleted, value, hpending]
  · simp [checkmarkCompleted, StatsViewController.checkmarkCompleted, value, hpending]

@[simp] theorem player_checkmarkCompleted (vc : SharedStatsViewController) :
    vc.checkmarkCompleted.player = vc.player := by
  unfold checkmarkCompleted
  split <;> rfl

/-- Both show the same or trap alike, and the player held stays. -/
theorem showStats_agree (vc : SharedStatsViewController) (heap : List Desc) :
    Agree (fun after valueAfter => after.value heap = valueAfter ∧ after.player = vc.player)
      (vc.showStats heap) (vc.value heap).showStats := by
  rcases hplayer : vc.player with _ | player
  · simp only [showStats, StatsViewController.showStats, hplayer, value_of_none hplayer]
    exact ⟨rfl, hplayer⟩
  · simp only [showStats, hplayer]
    rw [StatsViewController.showStats_of_some (value_of_some hplayer)]
    apply (Agree.refl _).bind
    rintro display _ rfl
    refine ⟨?_, rfl⟩
    simp only [value, hplayer]

/-- What a handler leaves when it has gone on: the same player held, and of the
    objects only those of this player written. -/
structure WroteHeld (vc : SharedStatsViewController) (heap : List Desc)
    (after : SharedStatsViewController) (heap' : List Desc) : Prop where
  player : after.player = vc.player
  length : heap'.length = heap.length
  frame : ∀ ref, (∀ held, vc.player = some held → ∀ race, ref ≠ held.stats.desc race) →
    read heap' ref = read heap ref

theorem WroteHeld.of_player {after : SharedStatsViewController} (h : after.player = vc.player)
    (heap : List Desc) : WroteHeld vc heap after heap :=
  ⟨h, rfl, fun _ _ => rfl⟩

theorem WroteHeld.of_write {player : SharedPlayer} (hplayer : vc.player = some player)
    {after : SharedStatsViewController} (h : after.player = vc.player) (heap : List Desc)
    (race : Race) (desc : Desc) :
    WroteHeld vc heap after (ObjectHeap.write heap (player.stats.desc race) desc) := by
  refine ⟨h, length_write _ _ _, ?_⟩
  intro ref href
  exact read_write_of_ne (href player hplayer race) desc

variable {π : Type} [DataProviding π]

theorem updateAndShow_agree {player : SharedPlayer} {before : StatsViewController}
    (hbefore : { before with player := some (player.value heap) } = vc.value heap)
    (write : Write) (provider : π) :
    Agree (fun after valueAfter => after.1.value heap = valueAfter.1 ∧ after.2 = valueAfter.2 ∧
        after.1.player = vc.player)
      (updateAndShow player write vc provider heap)
      (StatsViewController.updateAndShow (player.value heap) write before provider) := by
  unfold updateAndShow StatsViewController.updateAndShow
  apply (Agree.refl _).bind
  rintro ⟨provider', reply⟩ _ rfl
  simp only [hbefore, ← onUpdated_value]
  apply (showStats_agree _ _).bind
  rintro after _ ⟨rfl, hafter⟩
  exact ⟨rfl, rfl, hafter.trans (player_onUpdated _ _)⟩

/-- A handler over references does what the handler over values does. -/
theorem handle_agree (hheld : ∀ held, vc.player = some held →
      Live heap held.stats.desc ∧ Function.Injective held.stats.desc)
    (provider : π) (event : StatsEvent) :
    Agree (fun after valueAfter => after.1.value after.2.2 = valueAfter.1 ∧
        after.2.1 = valueAfter.2 ∧ WroteHeld vc heap after.1 after.2.2)
      (vc.handle provider heap event) ((vc.value heap).handle provider event) := by
  cases event with
  | addNewMatchResult matchResult write =>
    simp only [handle, StatsViewController.handle]
    rcases hplayer : vc.player with _ | player
    · simp only [addNewMatchResult, StatsViewController.addNewMatchResult, hplayer,
        value_of_none hplayer]
      exact ⟨rfl, rfl, WroteHeld.of_player rfl heap⟩
    · obtain ⟨hlive, hinjective⟩ := hheld player hplayer
      rw [StatsViewController.addNewMatchResult_of_some (value_of_some hplayer),
        SharedPlayer.counter_value]
      simp only [addNewMatchResult, hplayer]
      apply (Agree.refl _).bind
      rintro value _ rfl
      rw [← SharedPlayer.value_write hinjective hlive]
      apply (updateAndShow_agree (value_heap hplayer) write provider).bind
      rintro ⟨after, provider'⟩ ⟨_, _⟩ ⟨rfl, rfl, hafter⟩
      refine ⟨rfl, rfl, WroteHeld.of_write hplayer ?_ heap _ _⟩
      exact hafter
  | saveNewValue newValue race matchResult write =>
    simp only [handle, StatsViewController.handle]
    rcases hplayer : vc.player with _ | player
    · simp only [saveNewValue, StatsViewController.saveNewValue, hplayer, value_of_none hplayer]
      exact ⟨rfl, rfl, WroteHeld.of_player rfl heap⟩
    · obtain ⟨hlive, hinjective⟩ := hheld player hplayer
      rw [StatsViewController.saveNewValue_of_some (value_of_some hplayer)]
      simp only [saveNewValue, hplayer]
      rw [← SharedPlayer.value_write hinjective hlive,
        ← bind_pure (StatsViewController.updateAndShow _ write _ provider)]
      apply (updateAndShow_agree (value_heap hplayer) write provider).bind
      rintro ⟨after, provider'⟩ ⟨_, _⟩ ⟨rfl, rfl, hafter⟩
      exact ⟨rfl, rfl, WroteHeld.of_write hplayer hafter heap _ _⟩
  | addMatchButtonTapped =>
    refine ⟨rfl, rfl, WroteHeld.of_player ?_ heap⟩
    rfl
  | tappedOnBackground =>
    refine ⟨rfl, rfl, WroteHeld.of_player ?_ heap⟩
    rfl
  | unblurCompleted =>
    refine ⟨rfl, rfl, WroteHeld.of_player ?_ heap⟩
    rfl
  | checkmarkCompleted =>
    exact ⟨checkmarkCompleted_value vc, rfl,
      WroteHeld.of_player (player_checkmarkCompleted vc) heap⟩

/-- The player loaded is a new one. -/
theorem updateStatsForPlayer_agree [SharedProviding π] (playerName : String)
    (vc : SharedStatsViewController) (provider : π) (heap : List Desc) :
    Agree (fun after valueAfter => after.1.value after.2 = valueAfter ∧ heap <+: after.2 ∧
        ∀ held, after.1.player = some held → Created heap after.2 held)
      (updateStatsForPlayer playerName vc provider heap)
      (StatsViewController.updateStatsForPlayer playerName (vc.value heap) provider) := by
  have hextends := SharedProviding.loadPlayer_extends playerName provider heap
  have hvalue := SharedProviding.loadPlayer_value playerName provider heap
  have hcreated := SharedProviding.loadPlayer_created playerName provider heap
  unfold updateStatsForPlayer StatsViewController.updateStatsForPlayer
  generalize SharedProviding.loadPlayer playerName provider heap = loaded
    at hextends hvalue hcreated ⊢
  obtain ⟨heap', player⟩ := loaded
  simp only at hextends hvalue hcreated ⊢
  rw [← hvalue, ← bind_pure (StatsViewController.showStats _)]
  apply (showStats_agree { vc with player } heap').bind
  rintro after _ ⟨rfl, hafter⟩
  refine ⟨rfl, hextends, ?_⟩
  intro held hheld
  exact hcreated held (hafter.symm.trans hheld)

end SharedStatsViewController

/-! ### The players screens -/

namespace SharedPlayersViewController

variable {heap heap' : List Desc} {vc : SharedPlayersViewController}

@[simp] theorem form_value (heap : List Desc) (vc : SharedPlayersViewController) :
    (vc.value heap).form = vc.form := rfl

@[simp] theorem length_players_value (heap : List Desc) (vc : SharedPlayersViewController) :
    (vc.value heap).players.length = vc.players.length := by
  simp [value]

theorem value_congr (h : ∀ player ∈ vc.players, player.value heap' = player.value heap) :
    vc.value heap' = vc.value heap := by
  have hplayers := List.map_congr_left h
  simp only [value, hplayers]

theorem value_of_extends (hlive : ∀ player ∈ vc.players, Live heap player.stats.desc)
    (h : heap <+: heap') : vc.value heap' = vc.value heap :=
  value_congr fun player hplayer => SharedPlayer.value_of_extends (hlive player hplayer) h

/-- The heap has grown, and who is listed was listed before or is new. -/
structure ListsNew (vc : SharedPlayersViewController) (heap : List Desc)
    (after : SharedPlayersViewController) (heap' : List Desc) : Prop where
  grown : heap <+: heap'
  listed : ∀ player ∈ after.players, player ∈ vc.players ∨ Created heap heap' player

theorem ListsNew.of_subset {after : SharedPlayersViewController}
    (h : ∀ player ∈ after.players, player ∈ vc.players) (heap : List Desc) :
    ListsNew vc heap after heap :=
  ⟨List.prefix_refl heap, fun player hplayer => Or.inl (h player hplayer)⟩

theorem ListsNew.of_players {after : SharedPlayersViewController}
    (h : after.players = vc.players) (heap : List Desc) : ListsNew vc heap after heap :=
  ListsNew.of_subset (by simp [h]) heap

/-- Four objects are created, each with both counters zero. -/
theorem newStats_created (heap : List Desc) (name : String) (race : Race) :
    heap <+: (newStats heap).1 ∧ Created heap (newStats heap).1 ⟨name, race, (newStats heap).2⟩ ∧
      SharedPlayer.value (newStats heap).1 ⟨name, race, (newStats heap).2⟩ =
        ⟨name, race, .empty⟩ := by
  obtain ⟨hcreated, hvalue⟩ := created_append heap name race .empty
  have hnew : newStats heap = (heap ++ [.empty, .empty, .empty, .empty],
      ⟨heap.length, heap.length + 1, heap.length + 2, heap.length + 3⟩) := by
    simp [newStats, ObjectHeap.new]
  rw [hnew]
  exact ⟨List.prefix_append _ _, hcreated, hvalue⟩

@[simp] theorem players_listNewPlayer (player : SharedPlayer) (reply : Reply)
    (vc : SharedPlayersViewController) :
    (vc.listNewPlayer player reply).players = vc.players ++ [player] := by
  cases reply <;> rfl

@[simp] theorem players_removeRow (row : Nat) (reply : Reply) (vc : SharedPlayersViewController) :
    (vc.removeRow row reply).players = vc.players.eraseIdx row := by
  cases reply <;> rfl

theorem listNewPlayer_value (player : SharedPlayer) (reply : Reply)
    (vc : SharedPlayersViewController) : (vc.listNewPlayer player reply).value heap =
      (vc.value heap).listNewPlayer (player.value heap) reply := by
  cases reply <;> simp [listNewPlayer, PlayersViewController.listNewPlayer, value, onReply,
    PlayersViewController.onReply, PlayersViewController.presentAlertWithMessage,
    hideAddPlayerView, PlayersViewController.hideAddPlayerView]

theorem removeRow_value (row : Nat) (reply : Reply) (vc : SharedPlayersViewController) :
    (vc.removeRow row reply).value heap = (vc.value heap).removeRow row reply := by
  cases reply <;> simp [removeRow, PlayersViewController.removeRow, value, onReply,
    PlayersViewController.onReply, PlayersViewController.presentAlertWithMessage,
    List.eraseIdx_map]

variable {π : Type} [DataProviding π]

theorem addNewPlayer_agree (hlive : ∀ player ∈ vc.players, Live heap player.stats.desc)
    (playerResult : NewPlayer) (write : Write) (provider : π) :
    Agree (fun after valueAfter => after.1.value after.2.2 = valueAfter.1 ∧
        after.2.1 = valueAfter.2 ∧ ListsNew vc heap after.1 after.2.2)
      (vc.addNewPlayer playerResult write provider heap)
      ((vc.value heap).addNewPlayer playerResult write provider) := by
  obtain ⟨hextends, hcreated, hvalue⟩ :=
    newStats_created heap playerResult.name playerResult.race
  unfold addNewPlayer PlayersViewController.addNewPlayer
  generalize newStats heap = created at hextends hcreated hvalue ⊢
  obtain ⟨heap', stats⟩ := created
  simp only at hextends hcreated hvalue ⊢
  rw [hvalue]
  apply (Agree.refl _).bind
  rintro ⟨provider', reply⟩ _ rfl
  refine ⟨?_, rfl, hextends, ?_⟩
  · show (vc.listNewPlayer _ reply).value heap' = _
    rw [listNewPlayer_value, hvalue, value_of_extends hlive hextends]
  · intro player hplayer
    rw [players_listNewPlayer, List.mem_append, List.mem_singleton] at hplayer
    rcases hplayer with hold | rfl
    · exact Or.inl hold
    · exact Or.inr hcreated

theorem commitDelete_agree (row : Nat) (write : Write) (vc : SharedPlayersViewController)
    (provider : π) (heap : List Desc) :
    Agree (fun after valueAfter => after.1.value heap = valueAfter.1 ∧
        after.2 = valueAfter.2 ∧ ListsNew vc heap after.1 heap)
      (vc.commitDelete row write provider) ((vc.value heap).commitDelete row write provider) := by
  unfold commitDelete PlayersViewController.commitDelete
  have hget : (vc.value heap).players[row]? =
      (vc.players[row]?).map (SharedPlayer.value heap) := by
    simp only [value, List.getElem?_map]
  rw [hget]
  rcases vc.players[row]? with _ | player
  · rfl
  · apply (Agree.refl _).bind
    rintro ⟨provider', reply⟩ _ rfl
    refine ⟨removeRow_value row reply vc, rfl, ListsNew.of_subset ?_ heap⟩
    intro player' hplayer'
    rw [players_removeRow] at hplayer'
    exact List.mem_of_mem_eraseIdx hplayer'

theorem tapOnSave_agree (hlive : ∀ player ∈ vc.players, Live heap player.stats.desc)
    (write : Write) (provider : π) :
    Agree (fun after valueAfter => after.1.value after.2.2 = valueAfter.1 ∧
        after.2.1 = valueAfter.2 ∧ ListsNew vc heap after.1 after.2.2)
      (vc.tapOnSave write provider heap) ((vc.value heap).tapOnSave write provider) := by
  unfold tapOnSave PlayersViewController.tapOnSave
  apply (addNewPlayer_agree hlive vc.addPlayerView.playerResult write provider).bind
  rintro ⟨after, provider', heap'⟩ ⟨_, _⟩ ⟨rfl, rfl, hlists⟩
  exact ⟨rfl, rfl, hlists.grown, hlists.listed⟩

/-- A handler over references does what the handler over values does. -/
theorem handle_agree (count : String → Nat)
    (hlive : ∀ player ∈ vc.players, Live heap player.stats.desc) (provider : π)
    (event : PlayersEvent) :
    Agree (fun after valueAfter => after.1.value after.2.2 = valueAfter.1 ∧
        after.2.1 = valueAfter.2 ∧ ListsNew vc heap after.1 after.2.2)
      (vc.handle count provider heap event) ((vc.value heap).handle count provider event) := by
  cases event with
  | type text =>
    by_cases hopen : vc.form.IsOpen
    all_goals
      simp only [handle, PlayersViewController.handle, form_value, hopen, if_true, if_false]
      refine ⟨rfl, rfl, ListsNew.of_players ?_ heap⟩
      rfl
  | didSelectRace row =>
    by_cases hopen : vc.form.IsOpen
    all_goals
      simp only [handle, PlayersViewController.handle, form_value, hopen, if_true, if_false]
      refine ⟨rfl, rfl, ListsNew.of_players ?_ heap⟩
      rfl
  | tapOnSave write =>
    simp only [handle, PlayersViewController.handle]
    have hsame : ((vc.value heap).form.IsOpen ∧
        (vc.value heap).addPlayerView.saveButtonIsEnabled = true) ↔
        (vc.form.IsOpen ∧ vc.addPlayerView.saveButtonIsEnabled = true) := Iff.rfl
    by_cases haccepted : vc.form.IsOpen ∧ vc.addPlayerView.saveButtonIsEnabled = true
    · rw [if_pos haccepted, if_pos (hsame.mpr haccepted)]
      exact tapOnSave_agree hlive write provider
    · rw [if_neg haccepted, if_neg (mt hsame.mp haccepted)]
      exact ⟨rfl, rfl, ListsNew.of_players rfl heap⟩
  | addPlayerButtonTapped =>
    refine ⟨rfl, rfl, ListsNew.of_players ?_ heap⟩
    rfl
  | tappedOnBackground =>
    simp only [handle, PlayersViewController.handle, tappedOnBackground,
      PlayersViewController.tappedOnBackground, value, List.isEmpty_map]
    split
    all_goals
      refine ⟨rfl, rfl, ListsNew.of_players ?_ heap⟩
      rfl
  | commitDelete row write =>
    simp only [handle, PlayersViewController.handle, length_players_value]
    by_cases hrow : row < vc.players.length
    · rw [if_pos hrow, if_pos hrow, ← bind_pure ((vc.value heap).commitDelete row write provider)]
      apply (commitDelete_agree row write vc provider heap).bind
      rintro ⟨after, provider'⟩ ⟨_, _⟩ ⟨rfl, rfl, hlists⟩
      exact ⟨rfl, rfl, hlists⟩
    · rw [if_neg hrow, if_neg hrow]
      exact ⟨rfl, rfl, ListsNew.of_players rfl heap⟩
  | unblurCompleted =>
    refine ⟨rfl, rfl, ListsNew.of_players ?_ heap⟩
    rfl

/-- The players of a new screen are new. -/
theorem viewDidLoad_spec [SharedProviding π] (provider : π) (heap : List Desc) :
    (viewDidLoad provider heap).1.value (viewDidLoad provider heap).2 =
        PlayersViewController.viewDidLoad provider ∧
      heap <+: (viewDidLoad provider heap).2 ∧
      ∀ player ∈ (viewDidLoad provider heap).1.players,
        Created heap (viewDidLoad provider heap).2 player := by
  have hextends := SharedProviding.loadPlayers_extends provider heap
  have hvalue := SharedProviding.loadPlayers_value provider heap
  have hcreated := SharedProviding.loadPlayers_created provider heap
  unfold viewDidLoad PlayersViewController.viewDidLoad
  generalize SharedProviding.loadPlayers provider heap = loaded at hextends hvalue hcreated ⊢
  obtain ⟨heap', players⟩ := loaded
  simp only at hextends hvalue hcreated ⊢
  rw [← hvalue, List.isEmpty_map]
  split
  all_goals exact ⟨rfl, hextends, hcreated⟩

end SharedPlayersViewController

/-! ### The app -/

namespace SharedApp

variable {π : Type}

/-- Every reference leads to an object, the player held has four, and no player of a
    list has one of these. -/
structure Unshared (app : SharedApp π) : Prop where
  held : ∀ held, app.stats.player = some held →
    Live app.heap held.stats.desc ∧ Function.Injective held.stats.desc
  listed : ∀ vc ∈ app.screens, ∀ player ∈ vc.players, Live app.heap player.stats.desc
  apart : ∀ held, app.stats.player = some held → ∀ vc ∈ app.screens, ∀ player ∈ vc.players,
    ∀ race race', player.stats.desc race ≠ held.stats.desc race'

theorem unshared_launch (provider : π) : (launch provider).Unshared := by
  refine ⟨?_, ?_, ?_⟩ <;> simp [launch, SharedStatsViewController.initial]

theorem top_value (app : SharedApp π) :
    app.value.top = app.top.map fun top => (top.1, top.2.value app.heap) := by
  unfold App.top top
  rcases hpresented : app.presented with _ | screen
  · simp [value, hpresented]
  · simp only [value, hpresented, Option.bind_some, List.getElem?_map, Option.map_map]
    rfl

theorem mem_screens_of_top {app : SharedApp π} {screen : Nat} {vc : SharedPlayersViewController}
    (h : app.top = some (screen, vc)) : vc ∈ app.screens := by
  obtain ⟨screen', -, h⟩ := Option.bind_eq_some_iff.mp h
  obtain ⟨vc', hget, heq⟩ := Option.map_eq_some_iff.mp h
  cases heq
  exact List.mem_of_getElem? hget

/-- Who is held or listed was so before or is new: then nothing is shared, if nothing
    was. -/
theorem Unshared.of_created {app app' : SharedApp π} (h : app.Unshared)
    (hgrown : app.heap <+: app'.heap)
    (hheld : ∀ held, app'.stats.player = some held →
      app.stats.player = some held ∨
        (Created app.heap app'.heap held ∧ app'.screens = app.screens))
    (hlisted : ∀ vc ∈ app'.screens, ∀ player ∈ vc.players,
      (∃ vc ∈ app.screens, player ∈ vc.players) ∨ Created app.heap app'.heap player) :
    app'.Unshared := by
  have hle := hgrown.length_le
  refine ⟨?_, ?_, ?_⟩
  · intro held hplayer
    rcases hheld held hplayer with hold | ⟨hcreated, -⟩
    · exact ⟨(h.held held hold).1.mono hle, (h.held held hold).2⟩
    · exact ⟨hcreated.live, hcreated.distinct⟩
  · intro vc hvc player hplayer
    rcases hlisted vc hvc player hplayer with ⟨vc', hvc', hold⟩ | hcreated
    · exact (h.listed vc' hvc' player hold).mono hle
    · exact hcreated.live
  · intro held hplayer vc hvc player hmem race race'
    rcases hheld held hplayer with hold | ⟨hcreated, hscreens⟩
    · rcases hlisted vc hvc player hmem with ⟨vc', hvc', hbefore⟩ | hcreated
      · exact h.apart held hold vc' hvc' player hbefore race race'
      · exact (hcreated.ne ((h.held held hold).1 race') race).symm
    · rw [hscreens] at hvc
      exact hcreated.ne (h.listed vc hvc player hmem race) race'

/-- New objects change no value. -/
theorem Unshared.screens_of_extends {app : SharedApp π} (h : app.Unshared) {heap' : List Desc}
    (hgrown : app.heap <+: heap') :
    app.screens.map (SharedPlayersViewController.value heap') =
      app.screens.map (SharedPlayersViewController.value app.heap) :=
  List.map_congr_left fun vc hvc =>
    SharedPlayersViewController.value_of_extends (h.listed vc hvc) hgrown

theorem Unshared.stats_of_extends {app : SharedApp π} (h : app.Unshared) {heap' : List Desc}
    (hgrown : app.heap <+: heap') : app.stats.value heap' = app.stats.value app.heap := by
  rcases hplayer : app.stats.player with _ | held
  · simp only [SharedStatsViewController.value, hplayer, Option.map_none]
  · have hvalue := SharedPlayer.value_of_extends (h.held held hplayer).1 hgrown
    simp only [SharedStatsViewController.value, hplayer, Option.map_some, hvalue]

/-- A write to the player held changes the value of no list. -/
theorem Unshared.screens_of_wroteHeld {app : SharedApp π} (h : app.Unshared)
    {after : SharedStatsViewController} {heap' : List Desc}
    (hwrote : app.stats.WroteHeld app.heap after heap') :
    app.screens.map (SharedPlayersViewController.value heap') =
      app.screens.map (SharedPlayersViewController.value app.heap) := by
  apply List.map_congr_left
  intro vc hvc
  apply SharedPlayersViewController.value_congr
  intro player hplayer
  apply SharedPlayer.value_congr
  funext race
  apply hwrote.frame
  intro held hheld race'
  exact h.apart held hheld vc hvc player hplayer race race'

/-- The app over references stands for the app over values. -/
def StandsFor (app : SharedApp π) (valueApp : App π) : Prop :=
  app.value = valueApp ∧ app.Unshared

variable [DataProviding π] [SharedProviding π]

theorem stats_agree {app : SharedApp π} (h : app.Unshared) (count : String → Nat)
    (event : StatsEvent) :
    Agree StandsFor (app.step count (.stats event)) (app.value.step count (.stats event)) := by
  have htakes : app.value.Takes event ↔ app.presented = none ∨ event.isCompletion = true := Iff.rfl
  by_cases hevent : app.presented = none ∨ event.isCompletion = true
  · simp only [step, App.step, if_pos hevent, if_pos (htakes.mpr hevent)]
    apply (SharedStatsViewController.handle_agree h.held app.provider event).bind
    rintro ⟨after, provider', heap'⟩ ⟨_, _⟩ ⟨rfl, rfl, hwrote⟩
    refine ⟨?_, ?_, ?_, ?_⟩
    · show (⟨_, _, _, _, _⟩ : App π) = _
      rw [h.screens_of_wroteHeld hwrote]
      rfl
    · intro held hheld
      obtain ⟨hlive, hdistinct⟩ := h.held held (hwrote.player.symm.trans hheld)
      exact ⟨hlive.mono hwrote.length.ge, hdistinct⟩
    · intro vc hvc player hplayer
      exact (h.listed vc hvc player hplayer).mono hwrote.length.ge
    · intro held hheld
      exact h.apart held (hwrote.player.symm.trans hheld)
  · simp only [step, App.step, if_neg hevent, if_neg (mt htakes.mp hevent)]
    exact ⟨rfl, h⟩

theorem players_agree {app : SharedApp π} (h : app.Unshared) (count : String → Nat)
    (event : PlayersEvent) :
    Agree StandsFor (app.step count (.players event)) (app.value.step count (.players event)) := by
  simp only [step, App.step, top_value]
  rcases htop : app.top with _ | ⟨screen, vc⟩
  · exact ⟨rfl, h⟩
  · simp only [Option.map_some]
    have hvc := mem_screens_of_top htop
    apply (SharedPlayersViewController.handle_agree count (h.listed vc hvc)
      app.provider event).bind
    rintro ⟨after, provider', heap'⟩ ⟨_, _⟩ ⟨rfl, rfl, hlists⟩
    refine ⟨?_, h.of_created hlists.grown (fun held hheld => Or.inl hheld) ?_⟩
    · show (⟨_, _, _, _, _⟩ : App π) = _
      simp only [List.map_set, h.screens_of_extends hlists.grown, h.stats_of_extends hlists.grown]
      rfl
    · intro vc' hvc' player hplayer
      rcases List.mem_or_eq_of_mem_set hvc' with hold | rfl
      · exact Or.inl ⟨vc', hold, hplayer⟩
      · rcases hlists.listed player hplayer with hold | hcreated
        · exact Or.inl ⟨vc, hvc, hold⟩
        · exact Or.inr hcreated

theorem runBlock_agree {app : SharedApp π} (h : app.Unshared) (obeyed : Bool) (block : Block) :
    Agree StandsFor (app.runBlock obeyed block) (app.value.runBlock obeyed block) := by
  cases block with
  | presentPlayersViewController =>
    have hpresented : app.value.presented = app.presented := rfl
    simp only [runBlock, App.runBlock, hpresented]
    by_cases hobeyed : app.presented = none ∧ obeyed = true
    · rw [if_pos hobeyed, if_pos hobeyed]
      obtain ⟨hvalue, hgrown, hcreated⟩ :=
        SharedPlayersViewController.viewDidLoad_spec app.provider app.heap
      refine ⟨?_, h.of_created hgrown (fun held hheld => Or.inl hheld) ?_⟩
      · show (⟨_, _, _, _, _⟩ : App π) = _
        simp only [List.map_append, List.map_cons, List.map_nil, hvalue,
          h.screens_of_extends hgrown, h.stats_of_extends hgrown]
        simp only [value, List.length_map]
      · intro vc hvc player hplayer
        rcases List.mem_append.mp hvc with hold | hnew
        · exact Or.inl ⟨vc, hold, hplayer⟩
        · rw [List.mem_singleton] at hnew
          subst hnew
          exact Or.inr (hcreated player hplayer)
    · rw [if_neg hobeyed, if_neg hobeyed]
      exact ⟨rfl, h⟩
  | selectRow screen row =>
    have hscreens : app.value.screens[screen]? =
        (app.screens[screen]?).map (SharedPlayersViewController.value app.heap) := by
      simp only [value, List.getElem?_map]
    simp only [runBlock, App.runBlock, hscreens]
    rcases app.screens[screen]? with _ | vc
    · exact ⟨rfl, h⟩
    · have hplayers : (vc.value app.heap).players[row]? =
          (vc.players[row]?).map (SharedPlayer.value app.heap) := by
        simp only [SharedPlayersViewController.value, List.getElem?_map]
      simp only [Option.map_some, hplayers]
      rcases vc.players[row]? with _ | player
      · rfl
      · apply (SharedStatsViewController.updateStatsForPlayer_agree player.name app.stats
          app.provider app.heap).bind
        rintro ⟨stats, heap'⟩ _ ⟨rfl, hgrown, hcreated⟩
        refine ⟨?_, h.of_created hgrown ?_ (fun vc hvc player hplayer => Or.inl ⟨vc, hvc, hplayer⟩)⟩
        · show (⟨_, _, _, _, _⟩ : App π) = _
          simp only [h.screens_of_extends hgrown]
          rfl
        · intro held hheld
          exact Or.inr ⟨hcreated held hheld, rfl⟩

theorem step_agree (count : String → Nat) {app : SharedApp π} (h : app.Unshared)
    (event : AppEvent) : Agree StandsFor (app.step count event) (app.value.step count event) := by
  cases event with
  | stats event => exact stats_agree h count event
  | changePlayerTapped =>
    have hpresented : app.value.presented = app.presented := rfl
    simp only [step, App.step, hpresented]
    split
    all_goals exact ⟨rfl, h.held, h.listed, h.apart⟩
  | players event => exact players_agree h count event
  | didSelectRow row =>
    simp only [step, App.step, top_value]
    rcases app.top with _ | ⟨screen, vc⟩
    · exact ⟨rfl, h⟩
    · simp only [Option.map_some, SharedPlayersViewController.length_players_value]
      split
      all_goals exact ⟨rfl, h.held, h.listed, h.apart⟩
  | runBlock position obeyed =>
    have hqueue : app.value.queue[position]? = app.queue[position]? := rfl
    simp only [step, App.step, hqueue]
    rcases app.queue[position]? with _ | block
    · exact ⟨rfl, h⟩
    · have hunqueued : ({ app with queue := app.queue.eraseIdx position } : SharedApp π).Unshared :=
        ⟨h.held, h.listed, h.apart⟩
      exact runBlock_agree hunqueued obeyed block

/-- A run over references does what the run over values does, and it shares no
    counter that a handler writes to. -/
theorem run_agree_values (count : String → Nat) (provider : π) (events : List AppEvent) :
    Agree StandsFor (run (step count) (launch provider) events)
      (run (App.step count) (App.launch provider) events) := by
  apply run_agree (R := StandsFor)
  · rintro app _ event ⟨rfl, h⟩
    exact step_agree count h event
  · exact ⟨rfl, unshared_launch provider⟩

end SharedApp

end W3Stats

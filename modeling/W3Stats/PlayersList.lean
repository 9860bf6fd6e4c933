import W3Stats.PlayersViewController
import W3Stats.RealmRefinesMap

/-!
# The list of the players screen and the store

`addNewPlayer` and the deletion of a row change the array `players` and the store
by separate code, and their `onFailed` closures do not keep the array from being
changed.  So the array lists the stored players as long as no call of the
provider fails, and no longer.
-/

namespace W3Stats

open StepMachine

/-! ### The two operations on the list -/

inductive ListOperation where
  | addNewPlayer (playerResult : NewPlayer) (write : Write)
  | commitDelete (row : Nat) (write : Write)
deriving DecidableEq, Repr

namespace ListOperation

def write : ListOperation → Write
  | .addNewPlayer _ write => write
  | .commitDelete _ write => write

variable {π : Type} [DataProviding π]

def step (s : PlayersViewController × π) : ListOperation →
    Except Trap (PlayersViewController × π)
  | .addNewPlayer playerResult write => s.1.addNewPlayer playerResult write s.2
  | .commitDelete row write => s.1.commitDelete row write s.2

/-- A new name is not stored yet, and a row that is deleted is one of the table. -/
def Admitted (s : PlayersViewController × π) : ListOperation → Prop
  | .addNewPlayer playerResult _ => DataProviding.loadPlayer playerResult.name s.2 = none
  | .commitDelete row _ => row < s.1.players.length

/-- The array lists the stored players: it is a permutation of them, its names are
    distinct and are the stored ones, and each row can be loaded. -/
structure InSync (s : PlayersViewController × π) : Prop where
  perm : s.1.players.Perm (DataProviding.loadPlayers s.2)
  distinct : (s.1.players.map Player.name).Nodup
  names : ∀ name, name ∈ s.1.players.map Player.name ↔
    DataProviding.loadPlayer name s.2 ≠ none
  loads : ∀ player ∈ s.1.players, DataProviding.loadPlayer player.name s.2 = some player

/-- The state after every handler of the step is in sync. -/
def KeepsSync (s : PlayersViewController × π) (op : ListOperation) : Prop :=
  ∀ t, step s op = .ok t → InSync t

/-- The screen as `viewDidLoad` shows it. -/
def start (provider : π) : PlayersViewController × π :=
  (PlayersViewController.viewDidLoad provider, provider)

variable [LawfulProvider π]

/-! ### In terms of the map -/

theorem loadPlayer_ne_none_iff {provider : π} (hready : LawfulProvider.Ready provider)
    (name : String) :
    DataProviding.loadPlayer name provider ≠ none ↔ name ∈ LawfulProvider.contents provider := by
  rw [LawfulProvider.loadPlayer_eq name provider hready, PlayerMap.loadPlayer, Ne,
    Option.map_eq_none_iff, Finmap.lookup_eq_none, not_not]

/-- Being in sync is one equation of multisets. -/
theorem inSync_iff {s : PlayersViewController × π} (hready : LawfulProvider.Ready s.2) :
    InSync s ↔
      (s.1.players : Multiset Player) = PlayerMap.loadPlayers (LawfulProvider.contents s.2) := by
  have hstored := LawfulProvider.loadPlayers_eq s.2 hready
  constructor
  · intro h
    rw [← hstored]
    exact Multiset.coe_eq_coe.mpr h.perm
  · intro h
    have hmem : ∀ player, player ∈ s.1.players ↔
        player ∈ PlayerMap.loadPlayers (LawfulProvider.contents s.2) := by
      intro player
      rw [← h, Multiset.mem_coe]
    refine ⟨Multiset.coe_eq_coe.mp (h.trans hstored.symm), ?_, ?_, ?_⟩
    · have hnodup := PlayerMap.nodup_map_name_loadPlayers (LawfulProvider.contents s.2)
      rwa [← h, Multiset.map_coe, Multiset.coe_nodup] at hnodup
    · intro name
      rw [loadPlayer_ne_none_iff hready, PlayerMap.mem_iff_exists_loadPlayers, List.mem_map]
      simp only [hmem]
    · intro player hplayer
      rw [LawfulProvider.loadPlayer_eq player.name s.2 hready, PlayerMap.loadPlayer_eq_some]
      exact ⟨rfl, PlayerMap.mem_loadPlayers.mp ((hmem player).mp hplayer)⟩

theorem inSync_start {provider : π} (hready : LawfulProvider.Ready provider) :
    InSync (start provider) := by
  rw [inSync_iff hready]
  show ((PlayersViewController.viewDidLoad provider).players : Multiset Player) = _
  rw [PlayersViewController.players_viewDidLoad]
  exact LawfulProvider.loadPlayers_eq provider hready

/-! ### One operation -/

/-- From a state in sync, an operation goes on, and it keeps the sync exactly when
    its write goes through. -/
theorem step_of_inSync {s : PlayersViewController × π} (hready : LawfulProvider.Ready s.2)
    (hsync : InSync s) {op : ListOperation} (hadmitted : Admitted s op) :
    ∃ t, step s op = .ok t ∧ LawfulProvider.Ready t.2 ∧ (InSync t ↔ op.write = .succeeds) := by
  obtain ⟨vc, provider⟩ := s
  have hplayers := (inSync_iff hready).mp hsync
  simp only at hready hplayers
  cases op with
  | addNewPlayer playerResult write =>
    have hfresh : playerResult.name ∉ LawfulProvider.contents provider := by
      rw [← loadPlayer_ne_none_iff hready, not_not]
      exact hadmitted
    obtain ⟨provider', hstep, hready', hcontents⟩ :=
      PlayersViewController.addNewPlayer_fresh vc hready hfresh write
    refine ⟨_, hstep, hready', ?_⟩
    rw [inSync_iff hready']
    show ((vc.listNewPlayer _ write.reply).players : Multiset Player) =
      PlayerMap.loadPlayers (LawfulProvider.contents provider') ↔ write = .succeeds
    have hlisted : ∀ player : Player, ((vc.players ++ [player] : List Player) : Multiset Player) =
        player ::ₘ PlayerMap.loadPlayers (LawfulProvider.contents provider) := by
      intro player
      rw [← hplayers, Multiset.cons_coe]
      exact Multiset.coe_eq_coe.mpr (List.perm_append_singleton player vc.players)
    rw [PlayersViewController.players_listNewPlayer, hlisted, hcontents]
    cases write with
    | succeeds =>
      have hinsert := PlayerMap.loadPlayers_insert
        ⟨playerResult.name, playerResult.race, .empty⟩ hfresh
      exact ⟨fun _ => rfl, fun _ => hinsert.symm⟩
    | fails =>
      refine ⟨fun h => ?_, fun h => by cases h⟩
      have hcard := congrArg Multiset.card h
      rw [Multiset.card_cons] at hcard
      exact absurd hcard (Nat.succ_ne_self _)
  | commitDelete row write =>
    have hrow : vc.players[row]? = some (vc.players.get ⟨row, hadmitted⟩) :=
      List.getElem?_eq_getElem hadmitted
    obtain ⟨provider', reply, hstep, hready', hcontents⟩ :=
      PlayersViewController.commitDelete_eq hready hrow write
    refine ⟨_, hstep, hready', ?_⟩
    rw [inSync_iff hready']
    show ((vc.removeRow row reply).players : Multiset Player) =
      PlayerMap.loadPlayers (LawfulProvider.contents provider') ↔ write = .succeeds
    have hmem : vc.players.get ⟨row, hadmitted⟩ ∈
        PlayerMap.loadPlayers (LawfulProvider.contents provider) := by
      rw [← hplayers, Multiset.mem_coe]
      exact List.get_mem _ _
    have hsplit := PlayerMap.loadPlayers_of_lookup (PlayerMap.mem_loadPlayers.mp hmem)
    have herased : vc.players.get ⟨row, hadmitted⟩ ::ₘ (vc.players.eraseIdx row : Multiset Player) =
        PlayerMap.loadPlayers (LawfulProvider.contents provider) := by
      rw [← hplayers, Multiset.cons_coe]
      exact Multiset.coe_eq_coe.mpr (List.getElem_cons_eraseIdx_perm hadmitted)
    rw [PlayersViewController.players_removeRow, hcontents]
    cases write with
    | succeeds =>
      refine ⟨fun _ => rfl, ?_⟩
      intro _
      exact (Multiset.cons_inj_right _).mp (herased.trans hsplit)
    | fails =>
      refine ⟨fun h => ?_, fun h => by cases h⟩
      rw [Write.choose, ← herased] at h
      have hcard := congrArg Multiset.card h
      rw [Multiset.card_cons] at hcard
      exact absurd hcard.symm (Nat.succ_ne_self _)

/-! ### Whole runs -/

theorem keepsSync_iff_of_inSync {ops : List ListOperation} {s : PlayersViewController × π}
    (hready : LawfulProvider.Ready s.2) (hsync : InSync s)
    (hadmitted : AllSteps step Admitted s ops) :
    AllSteps step KeepsSync s ops ↔ ∀ op ∈ ops, op.write = .succeeds := by
  induction ops generalizing s with
  | nil => simp [AllSteps]
  | cons op ops ih =>
    obtain ⟨hop, hrest⟩ := hadmitted
    obtain ⟨t, hstep, hready', hiff⟩ := step_of_inSync hready hsync hop
    have hkeeps : KeepsSync s op ↔ op.write = .succeeds := by
      rw [← hiff]
      constructor
      · intro h
        exact h t hstep
      · intro h u hu
        rw [hstep] at hu
        cases hu
        exact h
    constructor
    · rintro ⟨hfirst, hothers⟩
      have hsucceeds := hkeeps.mp hfirst
      have htail := (ih hready' (hiff.mpr hsucceeds) (hrest t hstep)).mp (hothers t hstep)
      intro op' hop'
      rcases List.mem_cons.mp hop' with rfl | hmem
      · exact hsucceeds
      · exact htail op' hmem
    · intro h
      have hsucceeds := h op (by simp)
      refine ⟨hkeeps.mpr hsucceeds, ?_⟩
      intro u hu
      rw [hstep] at hu
      cases hu
      exact (ih hready' (hiff.mpr hsucceeds) (hrest t hstep)).mpr
        fun op' hop' => h op' (by simp [hop'])

/-- **When the list stays a list of the stored players.**  From a screen just
    loaded, with new names that are not stored and deletions of rows that exist,
    the array lists the stored players after every handler exactly when no call of
    the provider fails. -/
theorem keepsSync_iff_succeeds (realm : Realm) (hready : realm.Ready) (ops : List ListOperation)
    (hadmitted : AllSteps step Admitted (start realm) ops) :
    InSync (start realm) ∧
      (AllSteps step KeepsSync (start realm) ops ↔ ∀ op ∈ ops, op.write = .succeeds) :=
  ⟨inSync_start hready, keepsSync_iff_of_inSync hready (inSync_start hready) hadmitted⟩

theorem keepsSync_iff_succeeds_empty :
    InSync (start (Realm.opened Group.empty)) ∧
      (AllSteps step KeepsSync (start (Realm.opened Group.empty))
          [.addNewPlayer ⟨"abc", .orc⟩ .succeeds, .commitDelete 0 .fails] ↔
        ∀ op ∈ [ListOperation.addNewPlayer ⟨"abc", .orc⟩ .succeeds, .commitDelete 0 .fails],
          op.write = .succeeds) := by
  refine keepsSync_iff_succeeds _ Realm.ready_empty _ ⟨rfl, ?_⟩
  intro t ht
  cases ht
  exact ⟨Nat.zero_lt_one, fun _ _ => trivial⟩

/-- A failed save leaves a row that no stored player stands for. -/
theorem keepsSync_counterexample :
    (∃ t, step (start (Realm.opened Group.empty)) (.addNewPlayer ⟨"abc", .orc⟩ .fails) = .ok t ∧
      t.1.players = [⟨"abc", .orc, .empty⟩] ∧ RealmDataProvider.loadPlayers t.2 = [] ∧
      t.1.alerts = ["Failed to save player."]) ∧
    ¬ ∀ (realm : Realm) (ops : List ListOperation), realm.Ready →
        AllSteps step Admitted (start realm) ops → AllSteps step KeepsSync (start realm) ops := by
  have hstep : step (start (Realm.opened Group.empty)) (.addNewPlayer ⟨"abc", .orc⟩ .fails) =
      .ok (⟨[⟨"abc", .orc, .empty⟩], SlideUpForm.initial.slideUp 436 |>.slideDown, .initial,
        ["Failed to save player."]⟩, Realm.opened Group.empty) := by
    rfl
  refine ⟨⟨_, hstep, rfl, rfl, rfl⟩, ?_⟩
  intro h
  have hkeeps := (h (Realm.opened Group.empty) [.addNewPlayer ⟨"abc", .orc⟩ .fails]
    Realm.ready_empty ⟨rfl, fun _ _ => trivial⟩).1
  have hsync := hkeeps _ hstep
  exact absurd hsync.perm.length_eq (by decide)

end ListOperation

end W3Stats

import W3Stats.RealmDataProvider

/-!
# What a data provider is for

The purpose of `DataProviding` in its own terms: a finite map from names to a
race and eight counters.  `PlayerMap` has the five operations on that map, with
the traps and the replies a caller can observe.  `LawfulProvider` is the contract
the screens rely on: a provider agrees with its map, call by call.  A call that
writes takes the environment's choice whether the write goes through; a write
that fails leaves the map as it was.
-/

namespace W3Stats

open StepMachine

/-- What is stored under a name. -/
@[ext] structure Record where
  race : Race
  stats : Stats
deriving DecidableEq, Repr

def Player.record (player : Player) : Record := ⟨player.race, player.stats⟩

def Record.named (record : Record) (name : String) : Player := ⟨name, record.race, record.stats⟩

@[simp] theorem Player.record_named (player : Player) : player.record.named player.name = player :=
  rfl

@[simp] theorem Record.named_name (record : Record) (name : String) :
    (record.named name).name = name := rfl

/-- Whether a write of a provider call goes through.  One that fails is rolled back: a commit
    that throws and stays in its transaction, `CommitOutcome.threwInWrite` of the Realm, is
    left to the histories of single calls. -/
inductive Write where
  | succeeds
  | fails
deriving DecidableEq, Repr

/-- What is stored after a write that would turn `before` into `after`. -/
def Write.choose {α : Type} (before after : α) : Write → α
  | .succeeds => after
  | .fails => before

/-- What holds before a write and after it holds however it ends. -/
theorem Write.choose_of {α : Type} {p : α → Prop} {before after : α} (hbefore : p before)
    (hafter : p after) (write : Write) : p (write.choose before after) := by
  cases write with
  | succeeds => exact hafter
  | fails => exact hbefore

theorem Write.of_choose {α : Type} {p : α → Prop} {before after : α} {write : Write}
    (h : p (write.choose before after)) : p after ∨ p before := by
  cases write with
  | succeeds => exact Or.inl h
  | fails => exact Or.inr h

theorem Write.eq_succeeds {write : Write} (h : write ≠ .fails) : write = .succeeds := by
  cases write with
  | succeeds => rfl
  | fails => exact absurd rfl h

def Write.reply : Write → Reply
  | .succeeds => .done
  | .fails => .onFailed

/-! ### The map -/

abbrev PlayerMap := Finmap fun _ : String => Record

namespace PlayerMap

/-- The map and the reply after a write that would turn `before` into `after`. -/
def settle (before after : PlayerMap) : Write → PlayerMap × Reply
  | .succeeds => (after, .done)
  | .fails => (before, .onFailed)

def savePlayer (player : Player) (write : Write) (map : PlayerMap) :
    Except Trap (PlayerMap × Reply) :=
  if player.name ∈ map then
    .error (.exception (.existingPrimaryKey "PlayerObject" player.name))
  else .ok (settle map (map.insert player.name player.record) write)

def updatePlayer (player : Player) (write : Write) (map : PlayerMap) :
    Except Trap (PlayerMap × Reply) :=
  .ok (settle map (map.insert player.name player.record) write)

def loadPlayers (map : PlayerMap) : Multiset Player :=
  map.entries.map fun entry => entry.2.named entry.1

def loadPlayer (name : String) (map : PlayerMap) : Option Player :=
  (map.lookup name).map fun record => record.named name

def deletePlayer (name : String) (write : Write) (map : PlayerMap) :
    Except Trap (PlayerMap × Reply) :=
  if name ∈ map then .ok (settle map (map.erase name) write)
  else .ok (map, .onFailed)

theorem settle_eq_choose (before after : PlayerMap) (write : Write) :
    settle before after write = (write.choose before after, write.reply) := by
  cases write <;> rfl

theorem savePlayer_of_mem {player : Player} {map : PlayerMap} (h : player.name ∈ map)
    (write : Write) : savePlayer player write map =
      .error (.exception (.existingPrimaryKey "PlayerObject" player.name)) := if_pos h

theorem savePlayer_of_notMem {player : Player} {map : PlayerMap} (h : player.name ∉ map)
    (write : Write) : savePlayer player write map =
      .ok (settle map (map.insert player.name player.record) write) := if_neg h

theorem deletePlayer_of_mem {name : String} {map : PlayerMap} (h : name ∈ map)
    (write : Write) : deletePlayer name write map =
      .ok (settle map (map.erase name) write) := if_pos h

theorem deletePlayer_of_notMem {name : String} {map : PlayerMap} (h : name ∉ map)
    (write : Write) : deletePlayer name write map = .ok (map, .onFailed) := if_neg h

theorem loadPlayer_eq_some {map : PlayerMap} {name : String} {player : Player} :
    loadPlayer name map = some player ↔
      player.name = name ∧ map.lookup name = some player.record := by
  simp only [loadPlayer, Option.map_eq_some_iff]
  constructor
  · rintro ⟨record, hrecord, rfl⟩
    exact ⟨rfl, hrecord⟩
  · rintro ⟨rfl, hrecord⟩
    exact ⟨player.record, hrecord, rfl⟩

theorem mem_loadPlayers {map : PlayerMap} {player : Player} :
    player ∈ loadPlayers map ↔ map.lookup player.name = some player.record := by
  simp only [loadPlayers, Multiset.mem_map, Sigma.exists]
  constructor
  · rintro ⟨name, record, hmem, rfl⟩
    exact Finmap.lookup_eq_some_iff.mpr hmem
  · intro h
    exact ⟨player.name, player.record, Finmap.lookup_eq_some_iff.mp h, rfl⟩

theorem map_name_loadPlayers (map : PlayerMap) :
    (loadPlayers map).map Player.name = map.keys.val := by
  simp only [loadPlayers, Multiset.map_map, Function.comp_def, Record.named_name]
  rfl

theorem loadPlayers_insert {map : PlayerMap} (player : Player) (h : player.name ∉ map) :
    loadPlayers (map.insert player.name player.record) = player ::ₘ loadPlayers map := by
  simp only [loadPlayers, Finmap.entries_insert_of_notMem h, Multiset.map_cons,
    Player.record_named]

/-- A stored player is one of the players loaded, next to those of the other names. -/
theorem loadPlayers_of_lookup {map : PlayerMap} {player : Player}
    (h : map.lookup player.name = some player.record) :
    loadPlayers map = player ::ₘ loadPlayers (map.erase player.name) := by
  have habsent : player.name ∉ map.erase player.name := by
    rw [← Finmap.lookup_eq_none, Finmap.lookup_erase]
  have hrestore : (map.erase player.name).insert player.name player.record = map := by
    apply Finmap.ext_lookup
    intro k
    by_cases hk : k = player.name
    · rw [hk, Finmap.lookup_insert, h]
    · rw [Finmap.lookup_insert_of_ne _ hk, Finmap.lookup_erase_ne hk]
  rw [← loadPlayers_insert player habsent, hrestore]

theorem mem_iff_exists_loadPlayers {map : PlayerMap} {name : String} :
    name ∈ map ↔ ∃ player ∈ loadPlayers map, player.name = name := by
  rw [← Finmap.mem_keys, ← Finset.mem_val, ← map_name_loadPlayers, Multiset.mem_map]

theorem nodup_map_name_loadPlayers (map : PlayerMap) :
    ((loadPlayers map).map Player.name).Nodup := by
  rw [map_name_loadPlayers]
  exact map.keys.nodup

/-! Loading after a write. -/

theorem loadPlayer_insert_self (map : PlayerMap) (player : Player) :
    loadPlayer player.name (map.insert player.name player.record) = some player := by
  rw [loadPlayer, Finmap.lookup_insert]
  rfl

theorem loadPlayer_insert_of_ne {map : PlayerMap} {name : String} (player : Player)
    (h : name ≠ player.name) :
    loadPlayer name (map.insert player.name player.record) = loadPlayer name map := by
  rw [loadPlayer, Finmap.lookup_insert_of_ne _ h, loadPlayer]

theorem loadPlayer_erase_self (map : PlayerMap) (name : String) :
    loadPlayer name (map.erase name) = none := by
  rw [loadPlayer, Finmap.lookup_erase]
  rfl

theorem loadPlayer_erase_of_ne {map : PlayerMap} {name key : String} (h : name ≠ key) :
    loadPlayer name (map.erase key) = loadPlayer name map := by
  rw [loadPlayer, Finmap.lookup_erase_ne h, loadPlayer]

end PlayerMap

/-! ### The contract of a provider -/

/-- The protocol `DataProviding` over a provider state `π`. -/
class DataProviding (π : Type) where
  savePlayer : Player → Write → π → Except Trap (π × Reply)
  updatePlayer : Player → Write → π → Except Trap (π × Reply)
  loadPlayers : π → List Player
  loadPlayer : String → π → Option Player
  deletePlayer : String → Write → π → Except Trap (π × Reply)

/-- A provider that agrees with the map of its contents, as long as it is ready. -/
class LawfulProvider (π : Type) [DataProviding π] where
  Ready : π → Prop
  contents : π → PlayerMap
  savePlayer_agree : ∀ (player : Player) (write : Write) (s : π), Ready s →
    Agree (fun a b => Ready a.1 ∧ contents a.1 = b.1 ∧ a.2 = b.2)
      (DataProviding.savePlayer player write s)
      (PlayerMap.savePlayer player write (contents s))
  updatePlayer_agree : ∀ (player : Player) (write : Write) (s : π), Ready s →
    Agree (fun a b => Ready a.1 ∧ contents a.1 = b.1 ∧ a.2 = b.2)
      (DataProviding.updatePlayer player write s)
      (PlayerMap.updatePlayer player write (contents s))
  deletePlayer_agree : ∀ (name : String) (write : Write) (s : π), Ready s →
    Agree (fun a b => Ready a.1 ∧ contents a.1 = b.1 ∧ a.2 = b.2)
      (DataProviding.deletePlayer name write s)
      (PlayerMap.deletePlayer name write (contents s))
  loadPlayers_eq : ∀ s : π, Ready s →
    ((DataProviding.loadPlayers s : List Player) : Multiset Player) =
      PlayerMap.loadPlayers (contents s)
  loadPlayer_eq : ∀ (name : String) (s : π), Ready s →
    DataProviding.loadPlayer name s = PlayerMap.loadPlayer name (contents s)

namespace LawfulProvider

variable {π : Type} [DataProviding π] [LawfulProvider π] {provider : π}

theorem updatePlayer_eq (hready : Ready provider) (player : Player) (write : Write) :
    ∃ provider', DataProviding.updatePlayer player write provider = .ok (provider', write.reply) ∧
      Ready provider' ∧ contents provider' = write.choose (contents provider)
        ((contents provider).insert player.name player.record) := by
  have hagree := updatePlayer_agree player write provider hready
  rw [PlayerMap.updatePlayer, PlayerMap.settle_eq_choose] at hagree
  obtain ⟨⟨provider', reply⟩, heq, hready', hcontents, hreply⟩ := hagree.exists_ok
  simp only at hready' hcontents hreply
  exact ⟨provider', hreply ▸ heq, hready', hcontents⟩

theorem savePlayer_eq (hready : Ready provider) (player : Player)
    (h : player.name ∉ contents provider) (write : Write) :
    ∃ provider', DataProviding.savePlayer player write provider = .ok (provider', write.reply) ∧
      Ready provider' ∧ contents provider' = write.choose (contents provider)
        ((contents provider).insert player.name player.record) := by
  have hagree := savePlayer_agree player write provider hready
  rw [PlayerMap.savePlayer_of_notMem h, PlayerMap.settle_eq_choose] at hagree
  obtain ⟨⟨provider', reply⟩, heq, hready', hcontents, hreply⟩ := hagree.exists_ok
  simp only at hready' hcontents hreply
  exact ⟨provider', hreply ▸ heq, hready', hcontents⟩

theorem savePlayer_existing (hready : Ready provider) (player : Player)
    (h : player.name ∈ contents provider) (write : Write) :
    DataProviding.savePlayer player write provider =
      .error (.exception (.existingPrimaryKey "PlayerObject" player.name)) := by
  have hagree := savePlayer_agree player write provider hready
  rw [PlayerMap.savePlayer_of_mem h] at hagree
  exact hagree.eq_error

/-- A deletion of a name that is not stored fails, but it erases it all the same. -/
theorem deletePlayer_eq (hready : Ready provider) (name : String) (write : Write) :
    ∃ provider' reply, DataProviding.deletePlayer name write provider = .ok (provider', reply) ∧
      Ready provider' ∧ contents provider' = write.choose (contents provider)
        ((contents provider).erase name) := by
  have hagree := deletePlayer_agree name write provider hready
  by_cases h : name ∈ contents provider
  · rw [PlayerMap.deletePlayer_of_mem h, PlayerMap.settle_eq_choose] at hagree
    obtain ⟨⟨provider', reply⟩, heq, hready', hcontents, -⟩ := hagree.exists_ok
    exact ⟨provider', reply, heq, hready', hcontents⟩
  · rw [PlayerMap.deletePlayer_of_notMem h] at hagree
    obtain ⟨⟨provider', reply⟩, heq, hready', hcontents, -⟩ := hagree.exists_ok
    have herase : (contents provider).erase name = contents provider := by
      apply Finmap.ext_lookup
      intro k
      by_cases hk : k = name
      · rw [hk, Finmap.lookup_erase, Finmap.lookup_eq_none.mpr h]
      · rw [Finmap.lookup_erase_ne hk]
    refine ⟨provider', reply, heq, hready', hcontents.trans ?_⟩
    rw [herase]
    cases write <;> rfl

end LawfulProvider

end W3Stats

import W3Stats.PlayerMap

/-!
# The Realm provider refines the map

A ready Realm has no open transaction, distinct names in its `PlayerObject`
table, and complete players: every row links to a `StatsObject` row whose four
links are set.  On such a Realm every row reads back as a player, so `compactMap`
drops nothing, and each provider call does to the list of loaded players what
the corresponding row operation does to a table.
-/

namespace W3Stats

open StepMachine KeyedTable RealmDataParser

/-! ### Reading rows -/

namespace Group

/-- The player a row reads back as. -/
def playerAt (group : Group) (r : PlayerRow) : Option Player :=
  playerFromPlayerObject (some (group.readPlayer r))

/-- The row holds the player: the stats link and its four desc links are set and
    lead to the counters of the player. -/
structure Holds (group : Group) (r : PlayerRow) (player : Player) : Prop where
  name : r.name = player.name
  race : Race.ofRawValue r.race = player.race
  stats : ∃ row statsRow, r.stats = some row ∧ group.statsRows[row]? = some statsRow ∧
    group.readDesc statsRow.vsHuman = some (descObjectFromDesc player.stats.vsHuman) ∧
    group.readDesc statsRow.vsElf = some (descObjectFromDesc player.stats.vsElf) ∧
    group.readDesc statsRow.vsOrc = some (descObjectFromDesc player.stats.vsOrc) ∧
    group.readDesc statsRow.vsUndead = some (descObjectFromDesc player.stats.vsUndead)

theorem descFromDescObject_eq_some {object : Option DescObject} {desc : Desc} :
    descFromDescObject object = some desc ↔ object = some (descObjectFromDesc desc) := by
  cases object with
  | none => simp [descFromDescObject]
  | some obj =>
    simp only [descFromDescObject, descObjectFromDesc, Option.some.injEq]
    constructor
    · rintro rfl
      rfl
    · rintro rfl
      rfl

theorem statsInit_eq_some {human elf orc undead : Option Desc} {stats : Stats} :
    statsInit human elf orc undead = some stats ↔
      human = some stats.vsHuman ∧ elf = some stats.vsElf ∧ orc = some stats.vsOrc ∧
        undead = some stats.vsUndead := by
  constructor
  · intro h
    unfold statsInit at h
    split at h
    · cases h
      exact ⟨rfl, rfl, rfl, rfl⟩
    · cases h
  · rintro ⟨rfl, rfl, rfl, rfl⟩
    rfl

theorem playerAt_eq_some {group : Group} {r : PlayerRow} {player : Player} :
    group.playerAt r = some player ↔ group.Holds r player := by
  constructor
  · intro h
    simp only [playerAt, playerFromPlayerObject, readPlayer] at h
    split at h
    · cases h
    · rename_i stats hstats
      cases h
      simp only [statsFromStatsObject, statsInit_eq_some, descFromDescObject_eq_some] at hstats
      have hsome : (group.readStats r.stats).isSome := by
        cases hread : group.readStats r.stats with
        | none => simp [hread] at hstats
        | some object => rfl
      obtain ⟨object, hobject⟩ := Option.isSome_iff_exists.mp hsome
      simp only [hobject, Option.bind_some] at hstats
      simp only [readStats, Option.map_eq_some_iff, Option.bind_eq_some_iff] at hobject
      obtain ⟨statsRow, ⟨row, hrow, hget⟩, rfl⟩ := hobject
      exact ⟨rfl, rfl, row, statsRow, hrow, hget, hstats⟩
  · rintro ⟨hname, hrace, row, statsRow, hrow, hget, hhuman, helf, horc, hundead⟩
    have hread : group.readStats r.stats =
        some (statsObjectFromStats player.stats) := by
      simp [readStats, hrow, hget, hhuman, helf, horc, hundead, statsObjectFromStats]
    have hstats : statsFromStatsObject (some (statsObjectFromStats player.stats)) =
        some player.stats := by
      simp [statsFromStatsObject, statsInit_eq_some, descFromDescObject_eq_some,
        statsObjectFromStats]
    simp only [playerAt, playerFromPlayerObject, readPlayer, hread, hstats, hname, hrace]

theorem getElem?_append_of_some {α : Type} {l : List α} {i : Nat} {x : α} (h : l[i]? = some x)
    (l' : List α) : (l ++ l')[i]? = some x := by
  obtain ⟨hi, rfl⟩ := List.getElem?_eq_some_iff.mp h
  rw [List.getElem?_append_left hi, List.getElem?_eq_getElem hi]

variable {group : Group} {human elf orc undead : DescObject}

theorem readDesc_appendStats {link : Option Nat} {desc : DescObject}
    (h : group.readDesc link = some desc) :
    (group.appendStats human elf orc undead).readDesc link = some desc := by
  simp only [readDesc, Option.bind_eq_some_iff] at h ⊢
  obtain ⟨row, hlink, hrow⟩ := h
  exact ⟨row, hlink, getElem?_append_of_some hrow _⟩

/-- Adding rows to the two linked tables does not change what a player row holds. -/
theorem Holds.appendStats {r : PlayerRow} {player : Player} (h : group.Holds r player)
    (human elf orc undead : DescObject) :
    (group.appendStats human elf orc undead).Holds r player := by
  obtain ⟨hname, hrace, row, statsRow, hrow, hget, hhuman, helf, horc, hundead⟩ := h
  exact ⟨hname, hrace, row, statsRow, hrow, getElem?_append_of_some hget _,
    readDesc_appendStats hhuman, readDesc_appendStats helf, readDesc_appendStats horc,
    readDesc_appendStats hundead⟩

theorem readDesc_appendStats_new (k : Nat) :
    (group.appendStats human elf orc undead).readDesc (some (group.descRows.length + k)) =
      [human, elf, orc, undead][k]? := by
  simp only [readDesc, Option.bind_some, appendStats]
  rw [List.getElem?_append_right (Nat.le_add_right _ _), Nat.add_sub_cancel_left]

/-- The row written for a player holds it. -/
theorem holds_new (group : Group) (player : Player) :
    (group.appendStats (descObjectFromDesc player.stats.vsHuman)
        (descObjectFromDesc player.stats.vsElf) (descObjectFromDesc player.stats.vsOrc)
        (descObjectFromDesc player.stats.vsUndead)).Holds
      ⟨player.name, some group.statsRows.length, player.race.rawValue⟩ player := by
  refine ⟨rfl, Race.ofRawValue_rawValue _, group.statsRows.length, _, rfl,
    by simp only [appendStats]; rw [List.getElem?_append_right le_rfl, Nat.sub_self]; rfl, ?_⟩
  exact ⟨readDesc_appendStats_new 0, readDesc_appendStats_new 1, readDesc_appendStats_new 2,
    readDesc_appendStats_new 3⟩

/-! ### The list of loaded players -/

/-- The rows of the table read back, in order, as the players listed. -/
def Represents (group : Group) (players : List Player) : Prop :=
  group.playerRows.map group.playerAt = players.map some

theorem represents_iff_forall₂ {players : List Player} :
    group.Represents players ↔ List.Forall₂ group.Holds group.playerRows players := by
  rw [Represents, ← List.forall₂_eq_eq_eq, List.forall₂_map_left_iff, List.forall₂_map_right_iff]
  simp only [playerAt_eq_some]

variable {players : List Player}

theorem Represents.map_name (h : group.Represents players) :
    group.playerRows.map PlayerRow.name = players.map Player.name := by
  rw [← List.forall₂_eq_eq_eq, List.forall₂_map_left_iff, List.forall₂_map_right_iff]
  exact (represents_iff_forall₂.mp h).imp fun _ _ hholds => hholds.name

theorem Represents.length_eq (h : group.Represents players) :
    group.playerRows.length = players.length := by
  simpa using congrArg List.length h

theorem Represents.getElem? (h : group.Represents players) (row : Nat) :
    group.playerRows[row]?.bind group.playerAt = players[row]? := by
  have hget := congrArg (fun l => (l[row]?).bind id) h
  simpa [Option.bind_map, Function.comp_def] using hget

/-- The group after the rows of one more player were written. -/
def withRows (group : Group) (player : Player) (rows : List PlayerRow) : Group :=
  { group.appendStats (descObjectFromDesc player.stats.vsHuman)
      (descObjectFromDesc player.stats.vsElf) (descObjectFromDesc player.stats.vsOrc)
      (descObjectFromDesc player.stats.vsUndead) with playerRows := rows }

/-- The row written for the player. -/
def rowFor (group : Group) (player : Player) : PlayerRow :=
  ⟨player.name, some group.statsRows.length, player.race.rawValue⟩

@[simp] theorem playerRows_withRows (group : Group) (player : Player) (rows : List PlayerRow) :
    (group.withRows player rows).playerRows = rows := rfl

theorem playerAt_withRows {player p : Player} {rows : List PlayerRow} {r : PlayerRow}
    (h : group.playerAt r = some p) : (group.withRows player rows).playerAt r = some p := by
  obtain ⟨hname, hrace, hstats⟩ := (playerAt_eq_some.mp h).appendStats
    (descObjectFromDesc player.stats.vsHuman) (descObjectFromDesc player.stats.vsElf)
    (descObjectFromDesc player.stats.vsOrc) (descObjectFromDesc player.stats.vsUndead)
  exact playerAt_eq_some.mpr ⟨hname, hrace, hstats⟩

theorem playerAt_withRows_rowFor (player : Player) (rows : List PlayerRow) :
    (group.withRows player rows).playerAt (group.rowFor player) = some player := by
  obtain ⟨hname, hrace, hstats⟩ := holds_new group player
  exact playerAt_eq_some.mpr ⟨hname, hrace, hstats⟩

theorem Represents.map_playerAt_withRows (h : group.Represents players) (player : Player)
    (rows : List PlayerRow) :
    group.playerRows.map (group.withRows player rows).playerAt = players.map some := by
  rw [← h]
  apply List.map_congr_left
  intro r hr
  have hmem : group.playerAt r ∈ players.map some := h ▸ List.mem_map_of_mem hr
  obtain ⟨p, -, hp⟩ := List.mem_map.mp hmem
  rw [← hp]
  exact playerAt_withRows hp.symm

theorem Represents.append (h : group.Represents players) (player : Player) :
    (group.withRows player (group.playerRows ++ [group.rowFor player])).Represents
      (players ++ [player]) := by
  rw [Represents, playerRows_withRows, List.map_append, h.map_playerAt_withRows,
    List.map_singleton, playerAt_withRows_rowFor, List.map_append, List.map_singleton]

theorem Represents.set (h : group.Represents players) (player : Player) (row : Nat) :
    (group.withRows player (group.playerRows.set row (group.rowFor player))).Represents
      (players.set row player) := by
  rw [Represents, playerRows_withRows, List.map_set, h.map_playerAt_withRows,
    playerAt_withRows_rowFor, List.map_set]

theorem Represents.moveLastOver (h : group.Represents players) (row : Nat) :
    Represents { group with playerRows := KeyedTable.moveLastOver group.playerRows row }
      (KeyedTable.moveLastOver players row) := by
  show (KeyedTable.moveLastOver group.playerRows row).map group.playerAt = _
  rw [map_moveLastOver, map_moveLastOver, h]

theorem represents_empty : Group.empty.Represents [] := rfl

/-! ### What `Object::create` does to the list -/

theorem createPlayer_fresh {player : Player}
    (h : findFirst PlayerRow.name player.name group.playerRows = none) (tryUpdate : Bool) :
    group.createPlayer (playerObjectFromPlayer player) tryUpdate =
      .ok (group.withRows player (group.playerRows ++ [group.rowFor player])) :=
  createPlayer_of_none h tryUpdate

theorem createPlayer_update {player : Player} {row : Nat}
    (h : findFirst PlayerRow.name player.name group.playerRows = some row) :
    group.createPlayer (playerObjectFromPlayer player) true =
      .ok (group.withRows player (group.playerRows.set row (group.rowFor player))) :=
  createPlayer_of_some h

theorem Represents.findFirst_eq (h : group.Represents players) (name : String) :
    findFirst PlayerRow.name name group.playerRows = findFirst Player.name name players := by
  rw [findFirst_eq_findIdx_map, findFirst_eq_findIdx_map, h.map_name]

end Group

/-! ### Ready Realms -/

/-- No open transaction, distinct names, and every row holds a player. -/
structure Realm.Ready (realm : Realm) : Prop where
  idle : realm.beforeWrite = none
  names : (realm.group.playerRows.map PlayerRow.name).Nodup
  complete : ∀ r ∈ realm.group.playerRows, ∃ player, realm.group.Holds r player

/-- The map a Realm holds. -/
def Realm.contents (realm : Realm) : PlayerMap :=
  tabulate Player.name Player.record (RealmDataProvider.loadPlayers realm)

namespace Realm

variable {realm : Realm}

theorem loadPlayers_eq_filterMap (realm : Realm) :
    RealmDataProvider.loadPlayers realm =
      realm.group.playerRows.filterMap realm.group.playerAt := by
  simp only [RealmDataProvider.loadPlayers, objects, List.filterMap_map]
  rfl

theorem loadPlayers_of_represents {players : List Player} (h : realm.group.Represents players) :
    RealmDataProvider.loadPlayers realm = players := by
  have hid : (realm.group.playerRows.map realm.group.playerAt).filterMap id =
      (players.map some).filterMap id := congrArg _ h
  rw [List.filterMap_map, List.filterMap_map] at hid
  rw [loadPlayers_eq_filterMap]
  simpa [Function.comp_def] using hid

/-- `compactMap` drops no row of a ready Realm. -/
theorem Ready.represents (h : realm.Ready) :
    realm.group.Represents (RealmDataProvider.loadPlayers realm) := by
  have hall : ∀ rows : List PlayerRow,
      (∀ r ∈ rows, ∃ player, realm.group.Holds r player) →
      rows.map realm.group.playerAt = (rows.filterMap realm.group.playerAt).map some := by
    intro rows hrows
    induction rows with
    | nil => rfl
    | cons r rows ih =>
      obtain ⟨player, hplayer⟩ := hrows r (by simp)
      have hat := Group.playerAt_eq_some.mpr hplayer
      rw [List.map_cons, List.filterMap_cons_some hat, List.map_cons, hat,
        ih (fun r' hr' => hrows r' (by simp [hr']))]
  rw [Group.Represents, loadPlayers_eq_filterMap]
  exact hall _ h.complete

theorem ready_of_represents {group : Group} {players : List Player}
    (h : group.Represents players) (hnames : (players.map Player.name).Nodup) :
    (opened group).Ready := by
  refine ⟨rfl, ?_, ?_⟩
  · show (group.playerRows.map PlayerRow.name).Nodup
    rw [h.map_name]
    exact hnames
  · intro r hr
    have hmem : group.playerAt r ∈ players.map some := h ▸ List.mem_map_of_mem hr
    obtain ⟨player, -, hplayer⟩ := List.mem_map.mp hmem
    exact ⟨player, Group.playerAt_eq_some.mp hplayer.symm⟩

theorem Ready.nodup_names (h : realm.Ready) :
    ((RealmDataProvider.loadPlayers realm).map Player.name).Nodup := by
  rw [← h.represents.map_name]
  exact h.names

theorem ready_empty : (opened Group.empty).Ready :=
  ready_of_represents Group.represents_empty List.nodup_nil

@[simp] theorem contents_empty : (opened Group.empty).contents = ∅ := rfl

theorem contents_opened {group : Group} {players : List Player} (h : group.Represents players) :
    (opened group).contents = tabulate Player.name Player.record players := by
  have hload : RealmDataProvider.loadPlayers (opened group) = players :=
    loadPlayers_of_represents h
  rw [contents, hload]

theorem Ready.eq_opened (h : realm.Ready) : realm = opened realm.group := by
  obtain ⟨group, before⟩ := realm
  cases h.idle
  rfl

end Realm

/-! ### The provider calls on a ready Realm -/

/-- What a caller learns from a commit that ends the transaction. -/
def CommitOutcome.write : CommitOutcome → Write
  | .committed => .succeeds
  | .threwRolledBack => .fails
  | .threwInWrite => .fails

def Write.commit : Write → CommitOutcome
  | .succeeds => .committed
  | .fails => .threwRolledBack

@[simp] theorem Write.write_commit (write : Write) : write.commit.write = write := by
  cases write <;> rfl

theorem Write.commit_ne (write : Write) : write.commit ≠ .threwInWrite := by
  cases write <;> decide

namespace RealmDataProvider

variable {realm : Realm}

/-! The six ways a call that writes can go. -/

theorem savePlayer_fresh (hidle : realm.beforeWrite = none) {player : Player}
    (h : findFirst PlayerRow.name player.name realm.group.playerRows = none)
    (commit : CommitOutcome) :
    savePlayer player commit realm =
      .ok (settle realm.group (realm.group.withRows player
        (realm.group.playerRows ++ [realm.group.rowFor player])) commit) := by
  rw [savePlayer]
  refine writeOrFail_of_returned hidle ?_ commit
  simp only [Realm.add, Group.createPlayer_fresh h]

theorem savePlayer_existing (hidle : realm.beforeWrite = none) {player : Player} {row : Nat}
    (h : findFirst PlayerRow.name player.name realm.group.playerRows = some row)
    (commit : CommitOutcome) :
    savePlayer player commit realm =
      .error (.exception (.existingPrimaryKey "PlayerObject" player.name)) := by
  have hcreate : realm.group.createPlayer (playerObjectFromPlayer player) false =
      .error (.existingPrimaryKey "PlayerObject" player.name) :=
    Group.createPlayer_existing h
  rw [savePlayer]
  refine writeOrFail_of_error hidle ?_ commit
  simp only [Realm.add, hcreate]

theorem updatePlayer_fresh (hidle : realm.beforeWrite = none) {player : Player}
    (h : findFirst PlayerRow.name player.name realm.group.playerRows = none)
    (commit : CommitOutcome) :
    updatePlayer player commit realm =
      .ok (settle realm.group (realm.group.withRows player
        (realm.group.playerRows ++ [realm.group.rowFor player])) commit) := by
  rw [updatePlayer]
  refine writeOrFail_of_returned hidle ?_ commit
  simp only [Realm.add, Group.createPlayer_fresh h]

theorem updatePlayer_existing (hidle : realm.beforeWrite = none) {player : Player} {row : Nat}
    (h : findFirst PlayerRow.name player.name realm.group.playerRows = some row)
    (commit : CommitOutcome) :
    updatePlayer player commit realm =
      .ok (settle realm.group (realm.group.withRows player
        (realm.group.playerRows.set row (realm.group.rowFor player))) commit) := by
  rw [updatePlayer]
  refine writeOrFail_of_returned hidle ?_ commit
  simp only [Realm.add, Group.createPlayer_update h]

theorem deletePlayer_absent {name : String}
    (h : findFirst PlayerRow.name name realm.group.playerRows = none) (commit : CommitOutcome) :
    deletePlayer name commit realm = .ok (realm, .onFailed) := by
  simp only [deletePlayer, Realm.objectForPrimaryKey, h]

theorem deletePlayer_present (hidle : realm.beforeWrite = none) {name : String} {row : Nat}
    (h : findFirst PlayerRow.name name realm.group.playerRows = some row)
    (commit : CommitOutcome) :
    deletePlayer name commit realm =
      .ok (settle realm.group
        { realm.group with playerRows := moveLastOver realm.group.playerRows row } commit) := by
  simp only [deletePlayer, Realm.objectForPrimaryKey, h]
  exact writeOrFail_of_returned hidle rfl commit

/-- The Realm is ready, holds the map, and the caller saw the reply. -/
def Settled (a : Realm × Reply) (b : PlayerMap × Reply) : Prop :=
  a.1.Ready ∧ a.1.contents = b.1 ∧ a.2 = b.2

/-- A write whose tables represent the players `players'` agrees with a write of
    the map of `players'`. -/
theorem settled_settle (h : realm.Ready) {group : Group} {players' : List Player}
    (hrep : group.Represents players') (hnames : (players'.map Player.name).Nodup)
    {map' : PlayerMap} (hmap : tabulate Player.name Player.record players' = map')
    {commit : CommitOutcome} (hcommit : commit ≠ .threwInWrite) :
    Settled (settle realm.group group commit)
      (PlayerMap.settle realm.contents map' commit.write) := by
  cases commit with
  | committed =>
    refine ⟨Realm.ready_of_represents hrep hnames, ?_, rfl⟩
    rw [← hmap]
    exact Realm.contents_opened hrep
  | threwRolledBack =>
    have heq : (⟨realm.group, none⟩ : Realm) = realm := h.eq_opened.symm
    exact ⟨heq.symm ▸ h, congrArg Realm.contents heq, rfl⟩
  | threwInWrite => exact absurd rfl hcommit

theorem mem_contents (h : realm.Ready) {name : String} :
    name ∈ realm.contents ↔ findFirst PlayerRow.name name realm.group.playerRows ≠ none := by
  rw [h.represents.findFirst_eq, Ne, findFirst_eq_none, not_not, Realm.contents,
    mem_tabulate h.nodup_names]

theorem notMem_names (h : realm.Ready) {name : String} (hmem : name ∉ realm.contents) :
    name ∉ (loadPlayers realm).map Player.name := by
  rwa [Realm.contents, mem_tabulate h.nodup_names] at hmem

theorem findFirst_loadPlayers (h : realm.Ready) {name : String} {row : Nat}
    (hfind : findFirst PlayerRow.name name realm.group.playerRows = some row) :
    findFirst Player.name name (loadPlayers realm) = some row := by
  rw [← h.represents.findFirst_eq, hfind]

theorem savePlayer_agree (h : realm.Ready) (player : Player) {commit : CommitOutcome}
    (hcommit : commit ≠ .threwInWrite) :
    Agree Settled (savePlayer player commit realm)
      (PlayerMap.savePlayer player commit.write realm.contents) := by
  cases hfind : findFirst PlayerRow.name player.name realm.group.playerRows with
  | none =>
    have hmem : player.name ∉ realm.contents := fun hc => (mem_contents h).mp hc hfind
    rw [savePlayer_fresh h.idle hfind, PlayerMap.savePlayer_of_notMem hmem]
    exact settled_settle h (h.represents.append player)
      (nodup_append_row h.nodup_names (notMem_names h hmem))
      (tabulate_append_row h.nodup_names (notMem_names h hmem)) hcommit
  | some row =>
    have hmem : player.name ∈ realm.contents := (mem_contents h).mpr (by simp [hfind])
    rw [savePlayer_existing h.idle hfind, PlayerMap.savePlayer_of_mem hmem]
    rfl

theorem updatePlayer_agree (h : realm.Ready) (player : Player) {commit : CommitOutcome}
    (hcommit : commit ≠ .threwInWrite) :
    Agree Settled (updatePlayer player commit realm)
      (PlayerMap.updatePlayer player commit.write realm.contents) := by
  cases hfind : findFirst PlayerRow.name player.name realm.group.playerRows with
  | none =>
    have hmem : player.name ∉ realm.contents := fun hc => (mem_contents h).mp hc hfind
    rw [updatePlayer_fresh h.idle hfind]
    exact settled_settle h (h.represents.append player)
      (nodup_append_row h.nodup_names (notMem_names h hmem))
      (tabulate_append_row h.nodup_names (notMem_names h hmem)) hcommit
  | some row =>
    obtain ⟨hrow, hname⟩ := findFirst_eq_some (findFirst_loadPlayers h hfind)
    rw [updatePlayer_existing h.idle hfind]
    refine settled_settle h (h.represents.set player row) ?_
      (tabulate_set h.nodup_names hrow hname.symm) hcommit
    rw [map_set_of_key_eq hrow hname.symm]
    exact h.nodup_names

theorem deletePlayer_agree (h : realm.Ready) (name : String) {commit : CommitOutcome}
    (hcommit : commit ≠ .threwInWrite) :
    Agree Settled (deletePlayer name commit realm)
      (PlayerMap.deletePlayer name commit.write realm.contents) := by
  cases hfind : findFirst PlayerRow.name name realm.group.playerRows with
  | none =>
    have hmem : name ∉ realm.contents := fun hc => (mem_contents h).mp hc hfind
    rw [deletePlayer_absent hfind, PlayerMap.deletePlayer_of_notMem hmem]
    exact ⟨h, rfl, rfl⟩
  | some row =>
    have hmem : name ∈ realm.contents := (mem_contents h).mpr (by simp [hfind])
    obtain ⟨hrow, hname⟩ := findFirst_eq_some (findFirst_loadPlayers h hfind)
    rw [deletePlayer_present h.idle hfind, PlayerMap.deletePlayer_of_mem hmem]
    refine settled_settle h (h.represents.moveLastOver row)
      (nodup_moveLastOver h.nodup_names hrow) ?_ hcommit
    rw [tabulate_moveLastOver h.nodup_names hrow, hname]
    rfl

theorem loadPlayers_eq (h : realm.Ready) :
    (loadPlayers realm : Multiset Player) = PlayerMap.loadPlayers realm.contents := by
  simp only [PlayerMap.loadPlayers, Realm.contents, entries_tabulate h.nodup_names,
    Multiset.map_coe, List.map_map, Function.comp_def, Player.record_named, List.map_id']

theorem loadPlayer_eq (h : realm.Ready) (name : String) :
    loadPlayer name realm = PlayerMap.loadPlayer name realm.contents := by
  have hread : ∀ row, (realm.accessor row).bind (fun o => playerFromPlayerObject (some o)) =
      (loadPlayers realm)[row]? := by
    intro row
    rw [← h.represents.getElem?, Realm.accessor]
    cases realm.group.playerRows[row]? <;> rfl
  have hload : ∀ o : Option PlayerObject,
      playerFromPlayerObject o = o.bind (fun o => playerFromPlayerObject (some o)) := by
    intro o
    cases o <;> rfl
  rw [loadPlayer, hload, Option.bind_assoc, Realm.objectForPrimaryKey, h.represents.findFirst_eq,
    PlayerMap.loadPlayer]
  cases hfind : findFirst Player.name name (loadPlayers realm) with
  | none =>
    rw [Realm.contents, lookup_of_findFirst_none h.nodup_names hfind]
    rfl
  | some row =>
    obtain ⟨hrow, hname, hlookup⟩ :=
      lookup_of_findFirst Player.record h.nodup_names hfind
    rw [Realm.contents, hlookup, Option.bind_some, hread, List.getElem?_eq_getElem hrow,
      Option.map_some, ← hname, Player.record_named]

end RealmDataProvider

/-! ### The Realm provider is lawful -/

instance : DataProviding Realm where
  savePlayer player write := RealmDataProvider.savePlayer player write.commit
  updatePlayer player write := RealmDataProvider.updatePlayer player write.commit
  loadPlayers := RealmDataProvider.loadPlayers
  loadPlayer := RealmDataProvider.loadPlayer
  deletePlayer name write := RealmDataProvider.deletePlayer name write.commit

instance : LawfulProvider Realm where
  Ready := Realm.Ready
  contents := Realm.contents
  savePlayer_agree player write _ h := by
    have hagree := RealmDataProvider.savePlayer_agree h player write.commit_ne
    rwa [Write.write_commit] at hagree
  updatePlayer_agree player write _ h := by
    have hagree := RealmDataProvider.updatePlayer_agree h player write.commit_ne
    rwa [Write.write_commit] at hagree
  deletePlayer_agree name write _ h := by
    have hagree := RealmDataProvider.deletePlayer_agree h name write.commit_ne
    rwa [Write.write_commit] at hagree
  loadPlayers_eq _ h := RealmDataProvider.loadPlayers_eq h
  loadPlayer_eq name _ h := RealmDataProvider.loadPlayer_eq h name

end W3Stats

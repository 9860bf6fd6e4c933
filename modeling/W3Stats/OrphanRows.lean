import W3Stats.ProviderHistories

/-!
# Rows no player links to

A save appends a `StatsObject` row and its four `DescObject` rows.  An update does
the same and overwrites the link to the old ones; a deletion removes the
`PlayerObject` row alone.  Links are weak and the provider deletes nothing else,
so each update and each deletion of a stored player leaves one `StatsObject` row
behind, and this module counts them.
-/

namespace W3Stats

open StepMachine KeyedTable

/-! ### Parents of a row -/

def StatsRow.LinksTo (r : StatsRow) (row : Nat) : Prop :=
  r.vsHuman = some row ∨ r.vsElf = some row ∨ r.vsOrc = some row ∨ r.vsUndead = some row

instance (r : StatsRow) (row : Nat) : Decidable (r.LinksTo row) := by
  unfold StatsRow.LinksTo
  infer_instance

namespace Group

/-- The `PlayerObject` rows that link to a `StatsObject` row. -/
def statsParents (group : Group) (row : Nat) : List PlayerRow :=
  group.playerRows.filter fun r => r.stats = some row

/-- The `StatsObject` rows that link to a `DescObject` row. -/
def descParents (group : Group) (row : Nat) : List StatsRow :=
  group.statsRows.filter fun r => r.LinksTo row

/-- The `StatsObject` rows that no `PlayerObject` row links to. -/
def orphans (group : Group) : List Nat :=
  (List.range group.statsRows.length).filter fun row => group.statsParents row = []

/-- One `StatsObject` and four `DescObject`s for each player, and each of them
    linked from exactly one row. -/
structure NoGarbage (group : Group) : Prop where
  stats : group.statsRows.length = group.playerRows.length
  descs : group.descRows.length = 4 * group.playerRows.length
  statsLinked : ∀ row < group.statsRows.length, (group.statsParents row).length = 1
  descLinked : ∀ row < group.descRows.length, (group.descParents row).length = 1

/-- The linked tables with a given number of `StatsObject` rows left behind. -/
structure HasOrphans (group : Group) (n : Nat) : Prop where
  stats : group.statsRows.length = group.playerRows.length + n
  orphans : group.orphans.length = n
  statsLinked : ∀ row < group.statsRows.length, (group.statsParents row).length ≤ 1
  descs : group.descRows.length = 4 * group.statsRows.length
  descLinked : ∀ row < group.descRows.length, (group.descParents row).length = 1

/-! ### The layout of the tables -/

/-- The links of the `StatsObject` in row `i`, when each one was added with its
    `DescObject`s and none was ever deleted. -/
def block (i : Nat) : StatsRow :=
  ⟨some (4 * i), some (4 * i + 1), some (4 * i + 2), some (4 * i + 3)⟩

theorem block_linksTo {i row : Nat} : (block i).LinksTo row ↔ i = row / 4 := by
  simp only [StatsRow.LinksTo, block, Option.some.injEq]
  omega

structure Laid (group : Group) : Prop where
  blocks : group.statsRows = (List.range group.statsRows.length).map block
  descs : group.descRows.length = 4 * group.statsRows.length
  linked : ∀ r ∈ group.playerRows, ∃ row < group.statsRows.length, r.stats = some row
  distinct : (group.playerRows.map PlayerRow.stats).Nodup

variable {group : Group}

theorem laid_empty : Group.empty.Laid :=
  ⟨rfl, rfl, fun _ hr => absurd hr List.not_mem_nil, List.nodup_nil⟩

/-- The next `StatsObject` row is linked from no row yet. -/
theorem Laid.fresh (h : group.Laid) :
    some group.statsRows.length ∉ group.playerRows.map PlayerRow.stats := by
  intro hmem
  obtain ⟨r, hr, heq⟩ := List.mem_map.mp hmem
  obtain ⟨row, hrow, hlink⟩ := h.linked r hr
  rw [hlink, Option.some.injEq] at heq
  omega

/-- Adding a `StatsObject` with its `DescObject`s keeps the layout, if the rows of
    the players are the old ones and the new one. -/
theorem Laid.withRows (h : group.Laid) (player : Player) {rows : List PlayerRow}
    (hrows : ∀ r ∈ rows, r ∈ group.playerRows ∨ r = group.rowFor player)
    (hdistinct : (rows.map PlayerRow.stats).Nodup) : (group.withRows player rows).Laid := by
  have hstats : (group.withRows player rows).statsRows =
      group.statsRows ++ [block group.statsRows.length] := by
    simp only [Group.withRows, appendStats, h.descs, block]
  have hlen : (group.withRows player rows).statsRows.length = group.statsRows.length + 1 := by
    rw [hstats, List.length_append, List.length_singleton]
  refine ⟨?_, ?_, ?_, hdistinct⟩
  · rw [hlen, hstats, List.range_succ, List.map_append, ← h.blocks, List.map_singleton]
  · rw [hlen]
    have hdescs : (group.withRows player rows).descRows.length = group.descRows.length + 4 := by
      simp only [Group.withRows, appendStats, List.length_append, List.length_cons,
        List.length_nil]
    rw [hdescs, h.descs]
    omega
  · intro r hr
    rcases hrows r hr with hold | rfl
    · obtain ⟨row, hrow, hlink⟩ := h.linked r hold
      exact ⟨row, by omega, hlink⟩
    · exact ⟨group.statsRows.length, by omega, rfl⟩

theorem Laid.append (h : group.Laid) (player : Player) :
    (group.withRows player (group.playerRows ++ [group.rowFor player])).Laid := by
  apply h.withRows
  · intro r hr
    rcases List.mem_append.mp hr with hold | hnew
    · exact Or.inl hold
    · exact Or.inr (List.mem_singleton.mp hnew)
  · exact nodup_append_row h.distinct h.fresh

theorem Laid.set (h : group.Laid) (player : Player) (row : Nat) :
    (group.withRows player (group.playerRows.set row (group.rowFor player))).Laid := by
  apply h.withRows
  · intro r hr
    exact List.mem_or_eq_of_mem_set hr
  · rw [List.map_set]
    exact h.distinct.set h.fresh

theorem Laid.moveLastOver (h : group.Laid) {row : Nat} (hrow : row < group.playerRows.length) :
    Laid { group with playerRows := KeyedTable.moveLastOver group.playerRows row } := by
  refine ⟨h.blocks, h.descs, ?_, nodup_moveLastOver h.distinct hrow⟩
  intro r hr
  apply h.linked r
  exact (perm_cons_moveLastOver hrow).mem_iff.mpr (List.mem_cons_of_mem _ hr)

/-! ### What the layout says about links -/

/-- A `DescObject` row is linked from the block it belongs to and from no other. -/
theorem Laid.length_descParents (h : group.Laid) {row : Nat}
    (hrow : row < group.descRows.length) : (group.descParents row).length = 1 := by
  have hblock : row / 4 < group.statsRows.length := by
    have hdescs := h.descs
    omega
  rw [descParents, h.blocks, List.filter_map, List.length_map]
  have hfilter : (List.range group.statsRows.length).filter
      ((fun r : StatsRow => decide (r.LinksTo row)) ∘ block) =
        (List.range group.statsRows.length).filter (· == row / 4) := by
    apply List.filter_congr
    intro i _
    rw [Function.comp_apply, decide_eq_decide.mpr block_linksTo]
    rfl
  rw [hfilter, ← List.countP_eq_length_filter]
  exact List.count_eq_one_of_mem List.nodup_range (List.mem_range.mpr hblock)

/-- No two `PlayerObject` rows link to one `StatsObject` row. -/
theorem Laid.length_statsParents_le (h : group.Laid) (row : Nat) :
    (group.statsParents row).length ≤ 1 := by
  have hcount := List.nodup_iff_count_le_one.mp h.distinct (some row)
  rw [List.count, List.countP_map, List.countP_eq_length_filter] at hcount
  simpa [statsParents, Function.comp_def, beq_eq_decide] using hcount

theorem statsParents_eq_nil {row : Nat} :
    group.statsParents row = [] ↔ some row ∉ group.playerRows.map PlayerRow.stats := by
  simp [statsParents, List.filter_eq_nil_iff]

/-- The rows that are linked are as many as the players, so the others make up the
    rest of the table. -/
theorem Laid.length_orphans (h : group.Laid) :
    group.orphans.length + group.playerRows.length = group.statsRows.length := by
  have hlinked : List.Perm
      (((List.range group.statsRows.length).filter
        fun row => !decide (group.statsParents row = [])).map some)
      (group.playerRows.map PlayerRow.stats) := by
    rw [List.perm_ext_iff_of_nodup ((List.nodup_range.filter _).map (Option.some_injective _))
      h.distinct]
    intro link
    simp only [List.mem_map, List.mem_filter, List.mem_range, Bool.not_eq_true',
      decide_eq_false_iff_not, statsParents_eq_nil, not_not]
    constructor
    · rintro ⟨row, ⟨-, hmem⟩, rfl⟩
      exact hmem
    · rintro ⟨r, hr, rfl⟩
      obtain ⟨row, hrow, hlink⟩ := h.linked r hr
      exact ⟨row, ⟨hrow, r, hr, hlink⟩, hlink.symm⟩
  have hlength := hlinked.length_eq
  rw [List.length_map, List.length_map] at hlength
  have hsplit := List.length_eq_length_filter_add (l := List.range group.statsRows.length)
    (fun row => decide (group.statsParents row = []))
  rw [List.length_range] at hsplit
  rw [orphans]
  omega

theorem Laid.hasOrphans (h : group.Laid) {n : Nat}
    (hn : group.statsRows.length = group.playerRows.length + n) : group.HasOrphans n := by
  refine ⟨hn, ?_, fun row _ => h.length_statsParents_le row, h.descs,
    fun row hrow => h.length_descParents hrow⟩
  have hlength := h.length_orphans
  omega

/-- There is no garbage exactly when nothing was left behind. -/
theorem HasOrphans.noGarbage_iff {n : Nat} (h : group.HasOrphans n) :
    group.NoGarbage ↔ n = 0 := by
  constructor
  · intro hclean
    have hstats := h.stats
    have hequal := hclean.stats
    omega
  · rintro rfl
    refine ⟨h.stats, by rw [h.descs, h.stats, Nat.add_zero], fun row hrow => ?_, h.descLinked⟩
    have hnone : row ∉ group.orphans := by
      rw [List.length_eq_zero_iff.mp h.orphans]
      exact List.not_mem_nil
    have hparent : group.statsParents row ≠ [] := by
      intro hnil
      apply hnone
      simp [Group.orphans, hrow, hnil]
    have hpos := List.length_pos_of_ne_nil hparent
    have hle := h.statsLinked row hrow
    omega

end Group

/-! ### What a committed call does to the tables -/

namespace RealmDataProvider

/-- Whether the call is an update or a deletion of a player that is stored. -/
def Supersedes (realm : Realm) : ProviderCall → Prop
  | .updatePlayer player _ => realm.objectForPrimaryKey player.name ≠ none
  | .deletePlayer name _ => realm.objectForPrimaryKey name ≠ none
  | .savePlayer _ _ => False
  | .loadPlayer _ => False
  | .loadPlayers => False

instance (realm : Realm) (call : ProviderCall) : Decidable (Supersedes realm call) := by
  cases call <;> unfold Supersedes <;> infer_instance

/-- The number of updates and deletions in a history that hit a stored player. -/
def superseded : Realm → List ProviderCall → Nat :=
  account step (fun n realm call => if Supersedes realm call then n + 1 else n) 0

/-- The four things a committed call can do to the tables. -/
theorem group_of_step {realm realm' : Realm} {call : ProviderCall}
    (hidle : realm.beforeWrite = none) (hcommits : call.Commits)
    (hstep : step realm call = .ok realm') :
    realm'.beforeWrite = none ∧
      ((¬ Supersedes realm call ∧ realm'.group = realm.group) ∨
        (¬ Supersedes realm call ∧ ∃ player, realm'.group = realm.group.withRows player
          (realm.group.playerRows ++ [realm.group.rowFor player])) ∨
        (Supersedes realm call ∧ ∃ player row, realm'.group = realm.group.withRows player
          (realm.group.playerRows.set row (realm.group.rowFor player))) ∨
        (Supersedes realm call ∧ ∃ row < realm.group.playerRows.length, realm'.group =
          { realm.group with playerRows := moveLastOver realm.group.playerRows row })) := by
  obtain ⟨answer, hcall⟩ := step_eq_ok.mp hstep
  cases call with
  | savePlayer player commit =>
    obtain rfl := hcommits commit rfl
    obtain ⟨reply, hsave, -⟩ := answered_eq_ok.mp hcall
    rcases hfind : findFirst PlayerRow.name player.name realm.group.playerRows with _ | row
    · rw [savePlayer_fresh hidle hfind] at hsave
      cases hsave
      exact ⟨rfl, Or.inr (Or.inl ⟨id, player, rfl⟩)⟩
    · rw [savePlayer_existing hidle hfind] at hsave
      cases hsave
  | updatePlayer player commit =>
    obtain rfl := hcommits commit rfl
    obtain ⟨reply, hupdate, -⟩ := answered_eq_ok.mp hcall
    rcases hfind : findFirst PlayerRow.name player.name realm.group.playerRows with _ | row
    · rw [updatePlayer_fresh hidle hfind] at hupdate
      cases hupdate
      exact ⟨rfl, Or.inr (Or.inl ⟨fun hsome => hsome hfind, player, rfl⟩)⟩
    · rw [updatePlayer_existing hidle hfind] at hupdate
      cases hupdate
      have hsome : Supersedes realm (.updatePlayer player .committed) := by
        intro hnone
        rw [Realm.objectForPrimaryKey, hfind] at hnone
        cases hnone
      exact ⟨rfl, Or.inr (Or.inr (Or.inl ⟨hsome, player, row, rfl⟩))⟩
  | deletePlayer name commit =>
    obtain rfl := hcommits commit rfl
    obtain ⟨reply, hdelete, -⟩ := answered_eq_ok.mp hcall
    rcases hfind : findFirst PlayerRow.name name realm.group.playerRows with _ | row
    · rw [deletePlayer_absent hfind] at hdelete
      cases hdelete
      exact ⟨hidle, Or.inl ⟨fun hsome => hsome hfind, rfl⟩⟩
    · rw [deletePlayer_present hidle hfind] at hdelete
      cases hdelete
      have hsome : Supersedes realm (.deletePlayer name .committed) := by
        intro hnone
        rw [Realm.objectForPrimaryKey, hfind] at hnone
        cases hnone
      obtain ⟨hrow, -⟩ := findFirst_eq_some hfind
      exact ⟨rfl, Or.inr (Or.inr (Or.inr ⟨hsome, row, hrow, rfl⟩))⟩
  | loadPlayer name =>
    cases hcall
    exact ⟨hidle, Or.inl ⟨id, rfl⟩⟩
  | loadPlayers =>
    cases hcall
    exact ⟨hidle, Or.inl ⟨id, rfl⟩⟩

/-- The tables are laid out as they were built, with `n` rows left behind. -/
structure LeftBehind (n : Nat) (realm : Realm) : Prop where
  idle : realm.beforeWrite = none
  laid : realm.group.Laid
  count : realm.group.statsRows.length = realm.group.playerRows.length + n

theorem leftBehind_step {n : Nat} {realm realm' : Realm} {call : ProviderCall}
    (h : LeftBehind n realm) (hcommits : call.Commits) (hstep : step realm call = .ok realm') :
    LeftBehind (if Supersedes realm call then n + 1 else n) realm' := by
  obtain ⟨hidle, hlaid, hcount⟩ := h
  obtain ⟨hidle', hcases⟩ := group_of_step hidle hcommits hstep
  rcases hcases with ⟨hno, hgroup⟩ | ⟨hno, player, hgroup⟩ | ⟨hyes, player, row, hgroup⟩ |
    ⟨hyes, row, hrow, hgroup⟩
  · rw [if_neg hno]
    exact ⟨hidle', hgroup ▸ hlaid, hgroup ▸ hcount⟩
  · rw [if_neg hno]
    refine ⟨hidle', hgroup ▸ hlaid.append player, ?_⟩
    rw [hgroup]
    simp only [Group.withRows, Group.appendStats, List.length_append, List.length_singleton,
      hcount]
    omega
  · rw [if_pos hyes]
    refine ⟨hidle', hgroup ▸ hlaid.set player row, ?_⟩
    rw [hgroup]
    simp only [Group.withRows, Group.appendStats, List.length_append, List.length_singleton,
      List.length_set, hcount]
    omega
  · rw [if_pos hyes]
    refine ⟨hidle', hgroup ▸ hlaid.moveLastOver hrow, ?_⟩
    rw [hgroup]
    have hlength := length_moveLastOver hrow
    simp only [hcount]
    omega

/-! ### Whole histories -/

/-- **What a history leaves behind.**  After any history of committed calls from an
    empty Realm, each update and each deletion that hit a stored player has left
    one `StatsObject` row that nothing links to, with its four `DescObject` rows;
    the other rows are linked from exactly one row.  So there is no garbage exactly
    when no update and no deletion hit a stored player. -/
theorem hasOrphans_superseded (calls : List ProviderCall)
    (hcommits : ∀ call ∈ calls, call.Commits) {realm : Realm}
    (hrun : run step (Realm.opened Group.empty) calls = .ok realm) :
    realm.group.HasOrphans (superseded (Realm.opened Group.empty) calls) ∧
      (realm.group.NoGarbage ↔ superseded (Realm.opened Group.empty) calls = 0) := by
  have hstart : LeftBehind 0 (Realm.opened Group.empty) := ⟨rfl, Group.laid_empty, rfl⟩
  have hend : LeftBehind (superseded (Realm.opened Group.empty) calls) realm :=
    run_account (fun n realm call realm' => leftBehind_step) hstart hcommits hrun
  have horphans := hend.laid.hasOrphans hend.count
  exact ⟨horphans, horphans.noGarbage_iff⟩

theorem hasOrphans_superseded_history :
    ∃ realm,
      run step (Realm.opened Group.empty)
          [.savePlayer ⟨"abc", .orc, .empty⟩ .committed,
            .updatePlayer ⟨"abc", .orc, .empty⟩ .committed,
            .deletePlayer "abc" .committed] = .ok realm ∧
        realm.group.HasOrphans 2 ∧ (realm.group.NoGarbage ↔ 2 = 0) :=
  ⟨_, rfl, hasOrphans_superseded
    [.savePlayer ⟨"abc", .orc, .empty⟩ .committed,
      .updatePlayer ⟨"abc", .orc, .empty⟩ .committed,
      .deletePlayer "abc" .committed] (by decide) rfl⟩

/-- A save and an update of one player leave two `StatsObject` rows for it. -/
theorem noGarbage_counterexample :
    (∃ realm,
      run step (Realm.opened Group.empty)
          [.savePlayer ⟨"abc", .orc, .empty⟩ .committed,
            .updatePlayer ⟨"abc", .orc, .empty⟩ .committed] = .ok realm ∧
        realm.group.playerRows.length = 1 ∧ realm.group.statsRows.length = 2 ∧
        realm.group.descRows.length = 8 ∧ realm.group.statsParents 0 = []) ∧
    ¬ ∀ (calls : List ProviderCall) (realm : Realm), (∀ call ∈ calls, call.Commits) →
        run step (Realm.opened Group.empty) calls = .ok realm → realm.group.NoGarbage := by
  constructor
  · exact ⟨_, rfl, by decide⟩
  · intro h
    have hclean := h [.savePlayer ⟨"abc", .orc, .empty⟩ .committed,
      .updatePlayer ⟨"abc", .orc, .empty⟩ .committed] _ (by decide) rfl
    exact absurd hclean.stats (by decide)

end RealmDataProvider

end W3Stats

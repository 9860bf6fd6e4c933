import W3Stats.App

/-!
# The player the stats screen holds is stored

`updatePlayer` inserts a player whose name is not stored, and the players screen
can delete the very player the stats screen holds.  What keeps the two apart is
the navigation: while the stats screen is not covered, the player it holds is
stored, since only a selection uncovers it and a selection loads the player anew.
So updates never insert, and the stored names change on the players screen only.
-/

namespace W3Stats

open StepMachine

/-! ### Names in the store -/

section Names

variable {map : PlayerMap} {name key : String} {record : Record} {write : Write}

theorem PlayerMap.mem_of_mem_choose_insert
    (h : name ∈ write.choose map (map.insert key record)) : name = key ∨ name ∈ map := by
  rcases Write.of_choose (p := fun m : PlayerMap => name ∈ m) h with hafter | hbefore
  · exact Finmap.mem_insert.mp hafter
  · exact Or.inr hbefore

theorem PlayerMap.mem_choose_insert (h : name ∈ map) (write : Write) :
    name ∈ write.choose map (map.insert key record) :=
  Write.choose_of (p := fun m : PlayerMap => name ∈ m) h (Finmap.mem_insert.mpr (Or.inr h)) write

theorem PlayerMap.mem_of_mem_choose_erase (h : name ∈ write.choose map (map.erase key)) :
    name ∈ map := by
  rcases Write.of_choose (p := fun m : PlayerMap => name ∈ m) h with hafter | hbefore
  · exact (Finmap.mem_erase.mp hafter).2
  · exact hbefore

theorem PlayerMap.eq_of_notMem_choose_erase (h : name ∈ map)
    (h' : name ∉ write.choose map (map.erase key)) : name = key := by
  by_contra hne
  have hafter : name ∈ map.erase key := Finmap.mem_erase.mpr ⟨hne, h⟩
  exact h' (Write.choose_of (p := fun m : PlayerMap => name ∈ m) h hafter write)

end Names

namespace App

variable {π : Type} [DataProviding π] [LawfulProvider π]
variable {app app' : App π} {event : AppEvent}

/-! ### The navigation invariant -/

/-- While the stats screen is not covered, the player it holds is stored. -/
structure HeldIsStored (app : App π) : Prop where
  ready : LawfulProvider.Ready app.provider
  stored : app.presented = none → ∀ player, app.stats.player = some player →
    player.name ∈ LawfulProvider.contents app.provider

theorem heldIsStored_launch {provider : π} (h : LawfulProvider.Ready provider) :
    HeldIsStored (launch provider) := by
  refine ⟨h, ?_⟩
  intro _ player hplayer
  cases hplayer

theorem HeldIsStored.did (h : HeldIsStored app) (hdid : Did app event app') :
    HeldIsStored app' := by
  cases hdid with
  | quiet idle provider player display covered =>
    refine ⟨provider ▸ h.ready, ?_⟩
    intro hnone held hheld
    rw [provider]
    rw [player] at hheld
    exact h.stored (covered hnone) held hheld
  | updated uncovered player sets updated =>
    refine ⟨updated.ready, ?_⟩
    intro _ held hheld
    rw [updated.held] at hheld
    cases hheld
    rw [updated.stored]
    exact PlayerMap.mem_choose_insert (h.stored uncovered _ player) _
  | saved top accepted fresh ready' stored' stats presented =>
    refine ⟨ready', ?_⟩
    intro hnone
    rw [presented, presented_of_top top] at hnone
    cases hnone
  | deleted top listedAt ready' stored' stats presented =>
    refine ⟨ready', ?_⟩
    intro hnone
    rw [presented, presented_of_top top] at hnone
    cases hnone
  | selected player shown provider =>
    refine ⟨provider ▸ h.ready, ?_⟩
    intro _ held hheld
    rw [player, LawfulProvider.loadPlayer_eq _ _ h.ready, PlayerMap.loadPlayer_eq_some] at hheld
    rw [provider, ← Finmap.lookup_isSome, hheld.1, hheld.2]
    rfl

theorem HeldIsStored.step {count : String → Nat} (h : HeldIsStored app)
    (hstep : app.step count event = .ok app') : HeldIsStored app' :=
  h.did (did_of_step h.ready hstep)

/-! ### What changes the stored names -/

/-- The event saves the player of this name with the form. -/
def SavesName (app : App π) (event : AppEvent) (name : String) : Prop :=
  ∃ write i vc, event = .players (.tapOnSave write) ∧ app.top = some (i, vc) ∧
    vc.addPlayerView.playerResult.name = name

/-- The event deletes the row of the player of this name. -/
def DeletesName (app : App π) (event : AppEvent) (name : String) : Prop :=
  ∃ row write i vc listed, event = .players (.commitDelete row write) ∧
    app.top = some (i, vc) ∧ vc.players[row]? = some listed ∧ listed.name = name

theorem HeldIsStored.savesName (h : HeldIsStored app) (hdid : Did app event app')
    {name : String} (hnew : name ∈ LawfulProvider.contents app'.provider)
    (hold : name ∉ LawfulProvider.contents app.provider) : app.SavesName event name := by
  cases hdid with
  | quiet idle provider =>
    rw [provider] at hnew
    exact absurd hnew hold
  | updated uncovered player sets updated =>
    rw [updated.stored] at hnew
    rcases PlayerMap.mem_of_mem_choose_insert hnew with rfl | hmem
    · exact absurd (h.stored uncovered _ player) hold
    · exact absurd hmem hold
  | saved top accepted fresh ready' stored' =>
    rw [stored'] at hnew
    rcases PlayerMap.mem_of_mem_choose_insert hnew with rfl | hmem
    · exact ⟨_, _, _, rfl, top, rfl⟩
    · exact absurd hmem hold
  | deleted top listedAt ready' stored' =>
    rw [stored'] at hnew
    exact absurd (PlayerMap.mem_of_mem_choose_erase hnew) hold
  | selected player shown provider =>
    rw [provider] at hnew
    exact absurd hnew hold

theorem Did.deletesName (hdid : Did app event app') {name : String}
    (hold : name ∈ LawfulProvider.contents app.provider)
    (hgone : name ∉ LawfulProvider.contents app'.provider) : app.DeletesName event name := by
  cases hdid with
  | quiet idle provider =>
    rw [provider] at hgone
    exact absurd hold hgone
  | updated uncovered player sets updated =>
    rw [updated.stored] at hgone
    exact absurd (PlayerMap.mem_choose_insert hold _) hgone
  | saved top accepted fresh ready' stored' =>
    rw [stored'] at hgone
    exact absurd (PlayerMap.mem_choose_insert hold _) hgone
  | deleted top listedAt ready' stored' =>
    rw [stored'] at hgone
    rw [PlayerMap.eq_of_notMem_choose_erase hold hgone]
    exact ⟨_, _, _, _, _, rfl, top, listedAt, rfl⟩
  | selected player shown provider =>
    rw [provider] at hgone
    exact absurd hold hgone

/-! ### Whole runs -/

/-- The event calls `updatePlayer` for the player. -/
def UpdatesPlayer (app : App π) (event : AppEvent) (player : Player) : Prop :=
  ∃ e, event = .stats e ∧ app.Takes e ∧ e.isUpdate = true ∧ app.stats.player = some player

end App

/-- A row of the table has the primary key. -/
def Realm.IsStored (realm : Realm) (name : String) : Prop :=
  realm.objectForPrimaryKey name ≠ none

namespace App

/-- Updates find the row of their player, so they add no row; only the form adds a
    name and only a deleted row takes one away. -/
structure KeepsNames (count : String → Nat) (app : App Realm) (event : AppEvent) : Prop where
  updates : ∀ player, app.UpdatesPlayer event player → app.provider.IsStored player.name
  adds : ∀ app' name, app.step count event = .ok app' → app'.provider.IsStored name →
    ¬ app.provider.IsStored name → app.SavesName event name
  removes : ∀ app' name, app.step count event = .ok app' → app.provider.IsStored name →
    ¬ app'.provider.IsStored name → app.DeletesName event name
  rows : ∀ app' e, event = .stats e → app.step count event = .ok app' →
    app'.provider.group.playerRows.length = app.provider.group.playerRows.length

theorem mem_contents_iff {realm : Realm} (h : realm.Ready) {name : String} :
    name ∈ realm.contents ↔ realm.IsStored name := RealmDataProvider.mem_contents h

/-- The rows of a ready Realm have one name each. -/
theorem card_keys_contents {realm : Realm} (h : realm.Ready) :
    realm.contents.keys.card = realm.group.playerRows.length := by
  have hnames := PlayerMap.map_name_loadPlayers realm.contents
  rw [← RealmDataProvider.loadPlayers_eq h] at hnames
  calc realm.contents.keys.card
      = ((RealmDataProvider.loadPlayers realm : Multiset Player).map Player.name).card := by
        rw [hnames]
        rfl
    _ = (RealmDataProvider.loadPlayers realm).length := by simp
    _ = realm.group.playerRows.length := h.represents.length_eq.symm

theorem HeldIsStored.keepsNames {count : String → Nat} {app : App Realm}
    (h : HeldIsStored app) (event : AppEvent) : KeepsNames count app event := by
  have hadds : ∀ app' name, app.step count event = .ok app' → name ∈ app'.provider.contents →
      name ∉ app.provider.contents → app.SavesName event name :=
    fun app' name hstep => h.savesName (did_of_step h.ready hstep)
  have hremoves : ∀ app' name, app.step count event = .ok app' → name ∈ app.provider.contents →
      name ∉ app'.provider.contents → app.DeletesName event name :=
    fun app' name hstep => (did_of_step h.ready hstep).deletesName
  refine ⟨?_, ?_, ?_, ?_⟩
  · rintro player ⟨e, rfl, htakes, hupdate, hplayer⟩
    have hnone := htakes.presented_eq_none hupdate
    exact (mem_contents_iff h.ready).mp (h.stored hnone player hplayer)
  · intro app' name hstep hnew hold
    rw [← mem_contents_iff (h.step hstep).ready] at hnew
    rw [← mem_contents_iff h.ready] at hold
    exact hadds app' name hstep hnew hold
  · intro app' name hstep hold hgone
    rw [← mem_contents_iff h.ready] at hold
    rw [← mem_contents_iff (h.step hstep).ready] at hgone
    exact hremoves app' name hstep hold hgone
  · rintro app' e rfl hstep
    have hkeys : app'.provider.contents.keys = app.provider.contents.keys := by
      ext name
      rw [Finmap.mem_keys, Finmap.mem_keys]
      constructor
      · intro hnew
        by_contra hold
        obtain ⟨write, i, vc, heq, -⟩ := hadds app' name hstep hnew hold
        cases heq
      · intro hold
        by_contra hgone
        obtain ⟨row, write, i, vc, listed, heq, -⟩ := hremoves app' name hstep hold hgone
        cases heq
    rw [← card_keys_contents (h.step hstep).ready, ← card_keys_contents h.ready, hkeys]

/-- **Updates never insert.**  In every run from a launch over any store, whichever
    writes fail and whenever the blocks of the queue run: at each step that calls
    `updatePlayer` the name of the player is a stored primary key, and names enter
    the store through the form alone and leave it through deleted rows alone. -/
theorem allSteps_keepsNames (count : String → Nat) (realm : Realm) (hready : realm.Ready)
    (events : List AppEvent) : AllSteps (step count) (KeepsNames count) (launch realm) events :=
  allSteps_of_invariant (I := HeldIsStored) (fun _ _ _ h hstep => h.step hstep)
    (fun _ event h => h.keepsNames event) (heldIsStored_launch hready)

/-- The player held is deleted before the screen is left with another selection,
    which reads its row only then. -/
def deletesHeldPlayer : List AppEvent :=
  [.runBlock 0 true, .players (.type "abc"), .players (.tapOnSave .succeeds),
    .players .addPlayerButtonTapped, .players (.type "abcd"), .players (.tapOnSave .succeeds),
    .didSelectRow 0, .didSelectRow 0, .runBlock 0 false, .players (.commitDelete 0 .succeeds),
    .runBlock 0 true, .stats (.addNewMatchResult ⟨.orc, .win⟩ .succeeds)]

theorem allSteps_keepsNames_deletesHeldPlayer :
    AllSteps (step String.length) (KeepsNames String.length)
      (launch (Realm.opened Group.empty)) deletesHeldPlayer :=
  allSteps_keepsNames String.length _ Realm.ready_empty _

end App

end W3Stats

import W3Stats.RealmRefinesMap

/-!
# Histories of provider calls

A client of the provider issues calls and sees answers.  Over any history of
calls whose commits end their transaction, the Realm of three linked tables
answers as the finite map does, and it goes on observing as that map.
-/

namespace W3Stats

open StepMachine

/-- A call of the provider; a call that may write carries what the core does with
    its commit. -/
inductive ProviderCall where
  | savePlayer (player : Player) (commit : CommitOutcome)
  | updatePlayer (player : Player) (commit : CommitOutcome)
  | deletePlayer (name : String) (commit : CommitOutcome)
  | loadPlayer (name : String)
  | loadPlayers
deriving DecidableEq, Repr

/-- What the caller sees; the order of `loadPlayers` is the order of the table and
    carries no information. -/
inductive Answer where
  | reply (reply : Reply)
  | player (player : Option Player)
  | players (players : Multiset Player)
deriving DecidableEq

namespace ProviderCall

def commit? : ProviderCall → Option CommitOutcome
  | .savePlayer _ commit => some commit
  | .updatePlayer _ commit => some commit
  | .deletePlayer _ commit => some commit
  | .loadPlayer _ => none
  | .loadPlayers => none

/-- The name the call is about. -/
def name? : ProviderCall → Option String
  | .savePlayer player _ => some player.name
  | .updatePlayer player _ => some player.name
  | .deletePlayer name _ => some name
  | .loadPlayer name => some name
  | .loadPlayers => none

/-- A commit of the call goes through. -/
def Commits (call : ProviderCall) : Prop := ∀ commit ∈ call.commit?, commit = .committed

/-- A commit of the call ends its transaction. -/
def Ends (call : ProviderCall) : Prop := ∀ commit ∈ call.commit?, commit ≠ .threwInWrite

instance (call : ProviderCall) : Decidable call.Commits := by
  unfold Commits
  infer_instance

theorem Commits.ends {call : ProviderCall} (h : call.Commits) : call.Ends := by
  intro commit hmem
  rw [h commit hmem]
  decide

end ProviderCall

/-- Attach a reply to the state, as an answer. -/
def answered {π : Type} : Except Trap (π × Reply) → Except Trap (π × Answer)
  | .error x => .error x
  | .ok (s, reply) => .ok (s, .reply reply)

def RealmDataProvider.call (realm : Realm) : ProviderCall → Except Trap (Realm × Answer)
  | .savePlayer player commit => answered (savePlayer player commit realm)
  | .updatePlayer player commit => answered (updatePlayer player commit realm)
  | .deletePlayer name commit => answered (deletePlayer name commit realm)
  | .loadPlayer name => .ok (realm, .player (loadPlayer name realm))
  | .loadPlayers => .ok (realm, .players (loadPlayers realm))

def PlayerMap.call (map : PlayerMap) : ProviderCall → Except Trap (PlayerMap × Answer)
  | .savePlayer player commit => answered (savePlayer player commit.write map)
  | .updatePlayer player commit => answered (updatePlayer player commit.write map)
  | .deletePlayer name commit => answered (deletePlayer name commit.write map)
  | .loadPlayer name => .ok (map, .player (loadPlayer name map))
  | .loadPlayers => .ok (map, .players (loadPlayers map))

/-- The state after a call. -/
def RealmDataProvider.step (realm : Realm) (call : ProviderCall) : Except Trap Realm :=
  match RealmDataProvider.call realm call with
  | .error x => .error x
  | .ok (realm, _) => .ok realm

theorem RealmDataProvider.step_eq_ok {realm realm' : Realm} {call : ProviderCall} :
    step realm call = .ok realm' ↔
      ∃ answer, RealmDataProvider.call realm call = .ok (realm', answer) := by
  unfold step
  cases RealmDataProvider.call realm call with
  | error x => simp
  | ok a => simp [Prod.ext_iff]

/-! ### One call -/

/-- The Realm is ready and holds the map. -/
def Simulates (realm : Realm) (map : PlayerMap) : Prop := realm.Ready ∧ realm.contents = map

theorem agree_answered {x : Except Trap (Realm × Reply)} {y : Except Trap (PlayerMap × Reply)}
    (h : Agree RealmDataProvider.Settled x y) :
    Agree (fun a b => Simulates a.1 b.1 ∧ a.2 = b.2) (answered x) (answered y) := by
  cases x with
  | error t =>
    rw [h.of_error]
    rfl
  | ok a =>
    obtain ⟨b, rfl, hready, hcontents, hreply⟩ := h.of_ok
    exact ⟨⟨hready, hcontents⟩, congrArg Answer.reply hreply⟩

theorem call_agree {realm : Realm} {map : PlayerMap} (h : Simulates realm map)
    (call : ProviderCall) (hcall : call.Ends) :
    Agree (fun a b => Simulates a.1 b.1 ∧ a.2 = b.2)
      (RealmDataProvider.call realm call) (map.call call) := by
  obtain ⟨hready, rfl⟩ := h
  cases call with
  | savePlayer player commit =>
    exact agree_answered
      (RealmDataProvider.savePlayer_agree hready player (hcall commit rfl))
  | updatePlayer player commit =>
    exact agree_answered
      (RealmDataProvider.updatePlayer_agree hready player (hcall commit rfl))
  | deletePlayer name commit =>
    exact agree_answered
      (RealmDataProvider.deletePlayer_agree hready name (hcall commit rfl))
  | loadPlayer name =>
    exact ⟨⟨hready, rfl⟩, congrArg Answer.player (RealmDataProvider.loadPlayer_eq hready name)⟩
  | loadPlayers =>
    exact ⟨⟨hready, rfl⟩, congrArg Answer.players (RealmDataProvider.loadPlayers_eq hready)⟩

/-! ### What the map keeps apart -/

theorem answered_eq_ok {π : Type} {x : Except Trap (π × Reply)} {s : π} {answer : Answer} :
    answered x = .ok (s, answer) ↔ ∃ reply, x = .ok (s, reply) ∧ answer = .reply reply := by
  constructor
  · intro h
    cases x with
    | error t => cases h
    | ok a =>
      cases h
      exact ⟨a.2, rfl, rfl⟩
  · rintro ⟨reply, rfl, rfl⟩
    rfl

namespace PlayerMap

theorem settle_eq {before after map : PlayerMap} {write : Write} {reply : Reply}
    (h : settle before after write = (map, reply)) : map = before ∨ map = after := by
  cases write with
  | succeeds =>
    cases h
    exact Or.inr rfl
  | fails =>
    cases h
    exact Or.inl rfl

/-- What a call can do to the map. -/
theorem call_cases {map map' : PlayerMap} {call : ProviderCall} {answer : Answer}
    (h : map.call call = .ok (map', answer)) :
    map' = map ∨
      ∃ name, call.name? = some name ∧
        (map' = map.erase name ∨ ∃ record, map' = map.insert name record) := by
  cases call with
  | savePlayer player commit =>
    obtain ⟨reply, hx, -⟩ := answered_eq_ok.mp h
    by_cases hmem : player.name ∈ map
    · rw [savePlayer_of_mem hmem] at hx
      cases hx
    · rw [savePlayer_of_notMem hmem] at hx
      injection hx with hx
      rcases settle_eq hx with heq | heq
      · exact Or.inl heq
      · exact Or.inr ⟨player.name, rfl, Or.inr ⟨player.record, heq⟩⟩
  | updatePlayer player commit =>
    obtain ⟨reply, hx, -⟩ :=
      answered_eq_ok.mp (show answered (updatePlayer player commit.write map) = _ from h)
    injection hx with hx
    rcases settle_eq hx with heq | heq
    · exact Or.inl heq
    · exact Or.inr ⟨player.name, rfl, Or.inr ⟨player.record, heq⟩⟩
  | deletePlayer name commit =>
    obtain ⟨reply, hx, -⟩ := answered_eq_ok.mp h
    by_cases hmem : name ∈ map
    · rw [deletePlayer_of_mem hmem] at hx
      injection hx with hx
      rcases settle_eq hx with heq | heq
      · exact Or.inl heq
      · exact Or.inr ⟨name, rfl, Or.inl heq⟩
    · rw [deletePlayer_of_notMem hmem] at hx
      cases hx
      exact Or.inl rfl
  | loadPlayer name =>
    cases h
    exact Or.inl rfl
  | loadPlayers =>
    cases h
    exact Or.inl rfl

/-- A call on one name leaves every other name of the map as it is. -/
theorem lookup_of_call {map map' : PlayerMap} {call : ProviderCall} {answer : Answer}
    (h : map.call call = .ok (map', answer)) {other : String}
    (hother : call.name? ≠ some other) : map'.lookup other = map.lookup other := by
  rcases call_cases h with rfl | ⟨name, hname, rfl | ⟨record, rfl⟩⟩
  · rfl
  · exact Finmap.lookup_erase_ne fun heq => hother (heq ▸ hname)
  · exact Finmap.lookup_insert_of_ne _ fun heq => hother (heq ▸ hname)

end PlayerMap

/-! ### Histories -/

/-- What a client can find out about a Realm that stands for the map. -/
structure ObservesAs (realm : Realm) (map : PlayerMap) : Prop where
  loadPlayer : ∀ name, RealmDataProvider.loadPlayer name realm = PlayerMap.loadPlayer name map
  loadPlayers : (RealmDataProvider.loadPlayers realm : Multiset Player) =
    PlayerMap.loadPlayers map
  loadPlayers_once : ((RealmDataProvider.loadPlayers realm).map Player.name).Nodup
  deletePlayer_onFailed : ∀ name,
    (∃ realm', RealmDataProvider.deletePlayer name .committed realm = .ok (realm', .onFailed)) ↔
      RealmDataProvider.loadPlayer name realm = none
  deletePlayer_unchanged : ∀ name realm',
    RealmDataProvider.deletePlayer name .committed realm = .ok (realm', .onFailed) →
      realm' = realm
  otherNames : ∀ call realm' answer, call.Commits →
    RealmDataProvider.call realm call = .ok (realm', answer) →
      ∀ other, call.name? ≠ some other →
        RealmDataProvider.loadPlayer other realm' = RealmDataProvider.loadPlayer other realm

theorem Simulates.loadPlayer {realm : Realm} {map : PlayerMap} (h : Simulates realm map)
    (name : String) :
    RealmDataProvider.loadPlayer name realm = PlayerMap.loadPlayer name map := by
  obtain ⟨hready, rfl⟩ := h
  exact RealmDataProvider.loadPlayer_eq hready name

theorem loadPlayer_eq_none_iff {map : PlayerMap} {name : String} :
    PlayerMap.loadPlayer name map = none ↔ name ∉ map := by
  rw [PlayerMap.loadPlayer, Option.map_eq_none_iff, Finmap.lookup_eq_none]

/-- A committed `deletePlayer` fails exactly on an absent name, without a write. -/
theorem deletePlayer_onFailed_iff {realm realm' : Realm} (h : realm.Ready) (name : String) :
    RealmDataProvider.deletePlayer name .committed realm = .ok (realm', .onFailed) ↔
      name ∉ realm.contents ∧ realm' = realm := by
  rw [RealmDataProvider.mem_contents h, not_not]
  cases hfind : KeyedTable.findFirst PlayerRow.name name realm.group.playerRows with
  | none =>
    rw [RealmDataProvider.deletePlayer_absent hfind]
    constructor
    · intro heq
      cases heq
      exact ⟨rfl, rfl⟩
    · rintro ⟨-, rfl⟩
      rfl
  | some row =>
    rw [RealmDataProvider.deletePlayer_present h.idle hfind]
    constructor
    · intro heq
      cases heq
    · rintro ⟨hnone, -⟩
      cases hnone

theorem Simulates.observesAs {realm : Realm} {map : PlayerMap} (h : Simulates realm map) :
    ObservesAs realm map := by
  obtain ⟨hready, hmap⟩ := id h
  refine ⟨h.loadPlayer, hmap ▸ RealmDataProvider.loadPlayers_eq hready, hready.nodup_names,
    ?_, fun name realm' hdelete => ((deletePlayer_onFailed_iff hready name).mp hdelete).2, ?_⟩
  · intro name
    rw [h.loadPlayer, loadPlayer_eq_none_iff, ← hmap]
    constructor
    · rintro ⟨realm', hdelete⟩
      exact ((deletePlayer_onFailed_iff hready name).mp hdelete).1
    · intro hmem
      exact ⟨realm, (deletePlayer_onFailed_iff hready name).mpr ⟨hmem, rfl⟩⟩
  · intro call realm' answer hcommits hcall other hother
    have hagree := call_agree h call hcommits.ends
    rw [hcall] at hagree
    obtain ⟨⟨map', answer'⟩, hmapcall, hsim, -⟩ := hagree.of_ok
    rw [hsim.loadPlayer, h.loadPlayer, PlayerMap.loadPlayer, PlayerMap.loadPlayer,
      PlayerMap.lookup_of_call hmapcall hother]

theorem simulates_empty : Simulates (Realm.opened Group.empty) ∅ :=
  ⟨Realm.ready_empty, Realm.contents_empty⟩

/-- **The provider is observationally a finite map.**  Over every history of calls
    whose commits go through, the answers are those of the map, a trap occurs
    exactly where the map says one does, and the Realm reached still observes as
    the map reached. -/
theorem realmDataProvider_observesAs_map (calls : List ProviderCall)
    (hcommits : ∀ call ∈ calls, call.Commits) :
    Agree (fun a b => ObservesAs a.1 b.1 ∧ a.2 = b.2)
      (trace RealmDataProvider.call (Realm.opened Group.empty) calls)
      (trace PlayerMap.call ∅ calls) := by
  have hstep : ∀ (realm : Realm) (map : PlayerMap) (call : ProviderCall), Simulates realm map →
      call.Commits → Agree (fun a b => Simulates a.1 b.1 ∧ a.2 = b.2)
        (RealmDataProvider.call realm call) (map.call call) :=
    fun realm map call hsim hcall => call_agree hsim call hcall.ends
  have h := trace_agree hstep simulates_empty hcommits
  cases hrealm : trace RealmDataProvider.call (Realm.opened Group.empty) calls with
  | error x =>
    rw [hrealm] at h
    rw [h.of_error]
    rfl
  | ok a =>
    rw [hrealm] at h
    obtain ⟨b, hb, hsim, hanswers⟩ := h.of_ok
    rw [hb]
    exact ⟨hsim.observesAs, hanswers⟩

/-- The history of a player saved, updated, loaded and deleted twice. -/
theorem realmDataProvider_observesAs_map_history :
    Agree (fun a b => ObservesAs a.1 b.1 ∧ a.2 = b.2)
      (trace RealmDataProvider.call (Realm.opened Group.empty)
        [.savePlayer ⟨"abc", .orc, .empty⟩ .committed,
          .updatePlayer ⟨"abc", .orc, Stats.empty.setCounter 1 .win .human⟩ .committed,
          .loadPlayer "abc", .deletePlayer "abc" .committed, .loadPlayers,
          .deletePlayer "abc" .committed])
      (trace PlayerMap.call ∅
        [.savePlayer ⟨"abc", .orc, .empty⟩ .committed,
          .updatePlayer ⟨"abc", .orc, Stats.empty.setCounter 1 .win .human⟩ .committed,
          .loadPlayer "abc", .deletePlayer "abc" .committed, .loadPlayers,
          .deletePlayer "abc" .committed]) :=
  realmDataProvider_observesAs_map _ (by decide)

end W3Stats

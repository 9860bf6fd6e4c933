import W3Stats.ProviderHistories

/-!
# Commits that throw

`Realm.write` cancels the transaction when its block throws, not when the commit
does, and the `catch` of the provider only reports.  With a core that leaves a
transaction it could not commit in its writing stage, the call that reports
`onFailed` leaves the shared Realm inside that transaction, with the changes
visible, and the next write raises.  The histories below take any pattern of
commit outcomes.
-/

namespace W3Stats

open StepMachine KeyedTable

namespace RealmDataProvider

/-- The call gets as far as its commit on a Realm with no open transaction. -/
def ReachesCommit (realm : Realm) : ProviderCall → Prop
  | .savePlayer player _ => realm.objectForPrimaryKey player.name = none
  | .updatePlayer _ _ => True
  | .deletePlayer name _ => realm.objectForPrimaryKey name ≠ none
  | .loadPlayer _ => False
  | .loadPlayers => False

/-- The provider is as it was: the next `beginWrite` does not raise, and the loads
    return what they returned. -/
structure LeftAsItWas (before after : Realm) : Prop where
  noTransaction : after.isInWriteTransaction = false
  beginWrite : ∃ realm, after.beginWrite = .ok realm
  loadPlayer : ∀ name, RealmDataProvider.loadPlayer name after =
    RealmDataProvider.loadPlayer name before
  loadPlayers : RealmDataProvider.loadPlayers after = RealmDataProvider.loadPlayers before

/-- If the call reports `onFailed` because its commit threw, then the provider is
    left as it was. -/
def FailsCleanly (realm : Realm) (call : ProviderCall) : Prop :=
  ∀ realm', ReachesCommit realm call →
    RealmDataProvider.call realm call = .ok (realm', .reply .onFailed) →
      LeftAsItWas realm realm'

/-- The commit of the call, if it is reached, does not leave its transaction open. -/
def CommitEnds (realm : Realm) (call : ProviderCall) : Prop :=
  ReachesCommit realm call → call.Ends

variable {realm : Realm}

/-- A call that reaches its commit turns the tables into some others and settles. -/
theorem call_of_reachesCommit (hidle : realm.beforeWrite = none) {call : ProviderCall}
    (h : ReachesCommit realm call) :
    ∃ after commit, call.commit? = some commit ∧
      RealmDataProvider.call realm call =
        answered (.ok (settle realm.group after commit)) := by
  cases call with
  | savePlayer player commit =>
    exact ⟨_, commit, rfl, congrArg answered (savePlayer_fresh hidle h commit)⟩
  | updatePlayer player commit =>
    cases hfind : findFirst PlayerRow.name player.name realm.group.playerRows with
    | none => exact ⟨_, commit, rfl, congrArg answered (updatePlayer_fresh hidle hfind commit)⟩
    | some row =>
      exact ⟨_, commit, rfl, congrArg answered (updatePlayer_existing hidle hfind commit)⟩
  | deletePlayer name commit =>
    obtain ⟨row, hfind⟩ := Option.ne_none_iff_exists'.mp h
    exact ⟨_, commit, rfl, congrArg answered (deletePlayer_present hidle hfind commit)⟩
  | loadPlayer name => exact h.elim
  | loadPlayers => exact h.elim

theorem leftAsItWas_self (hidle : realm.beforeWrite = none) : LeftAsItWas realm realm := by
  have hno : realm.isInWriteTransaction = false := by
    rw [Realm.isInWriteTransaction, hidle]
    rfl
  refine ⟨hno, ⟨{ realm with beforeWrite := some realm.group }, ?_⟩, fun _ => rfl, rfl⟩
  rw [Realm.beginWrite, hno]
  rfl

/-- On a Realm with no open transaction, a call fails cleanly exactly when its
    commit ends its transaction. -/
theorem failsCleanly_iff (hidle : realm.beforeWrite = none) (call : ProviderCall) :
    FailsCleanly realm call ↔ CommitEnds realm call := by
  constructor
  · intro h hreach commit hmem hcommit
    obtain ⟨after, commit', hcommit', hcall⟩ := call_of_reachesCommit hidle hreach
    rw [hcommit', Option.mem_some_iff] at hmem
    rw [hmem, hcommit] at hcall
    have hleft := (h _ hreach hcall).noTransaction
    exact absurd hleft (by simp [Realm.isInWriteTransaction])
  · intro h realm' hreach hfailed
    obtain ⟨after, commit, hcommit, hcall⟩ := call_of_reachesCommit hidle hreach
    have hne := h hreach commit hcommit
    rw [hcall] at hfailed
    cases commit with
    | committed => cases hfailed
    | threwRolledBack =>
      have heq : realm' = realm := by
        obtain ⟨group, before⟩ := realm
        cases hidle
        cases hfailed
        rfl
      rw [heq]
      exact leftAsItWas_self hidle
    | threwInWrite => exact absurd rfl hne

/-- A call whose commit ends its transaction, or that reaches none, leaves no
    transaction open. -/
theorem idle_of_commitEnds (hidle : realm.beforeWrite = none) {call : ProviderCall}
    (h : CommitEnds realm call) {realm' : Realm} (hstep : step realm call = .ok realm') :
    realm'.beforeWrite = none := by
  obtain ⟨answer, hcall⟩ := step_eq_ok.mp hstep
  by_cases hreach : ReachesCommit realm call
  · obtain ⟨after, commit, hcommit, hsettle⟩ := call_of_reachesCommit hidle hreach
    have hne := h hreach commit hcommit
    rw [hsettle] at hcall
    cases commit with
    | committed =>
      cases hcall
      rfl
    | threwRolledBack =>
      cases hcall
      rfl
    | threwInWrite => exact absurd rfl hne
  · cases call with
    | savePlayer player commit =>
      obtain ⟨row, hfind⟩ := Option.ne_none_iff_exists'.mp hreach
      have herror : RealmDataProvider.call realm (.savePlayer player commit) = _ :=
        congrArg answered (savePlayer_existing hidle hfind commit)
      rw [herror] at hcall
      cases hcall
    | updatePlayer player commit => exact absurd trivial hreach
    | deletePlayer name commit =>
      have hfind : realm.objectForPrimaryKey name = none := not_not.mp hreach
      have habsent : RealmDataProvider.call realm (.deletePlayer name commit) = _ :=
        congrArg answered (deletePlayer_absent hfind commit)
      rw [habsent] at hcall
      cases hcall
      exact hidle
    | loadPlayer name =>
      cases hcall
      exact hidle
    | loadPlayers =>
      cases hcall
      exact hidle

/-- **When failed calls leave the provider as it was.**  Over a history of calls on
    the shared Realm, every call that reports `onFailed` because its commit threw
    leaves the provider as it was if and only if no commit the history reaches
    leaves its transaction open. -/
theorem failsCleanly_iff_commitEnds (calls : List ProviderCall) :
    AllSteps step FailsCleanly (Realm.opened Group.empty) calls ↔
      AllSteps step CommitEnds (Realm.opened Group.empty) calls := by
  refine (allSteps_congr (I := fun realm => realm.beforeWrite = none) ?_ ?_ rfl).symm
  · intro realm call realm' hidle hends hstep
    exact idle_of_commitEnds hidle hends hstep
  · intro realm call hidle
    exact (failsCleanly_iff hidle call).symm

/-- One save whose commit throws: the caller is told it failed, the player can be
    loaded, the transaction is open and the next write raises. -/
theorem failsCleanly_counterexample :
    (∃ realm,
      RealmDataProvider.call (Realm.opened Group.empty)
          (.savePlayer ⟨"abc", .human, .empty⟩ .threwInWrite) =
        .ok (realm, .reply .onFailed) ∧
      loadPlayer "abc" (Realm.opened Group.empty) = none ∧
      loadPlayer "abc" realm = some ⟨"abc", .human, .empty⟩ ∧
      realm.isInWriteTransaction = true ∧
      updatePlayer ⟨"abc", .human, .empty⟩ .committed realm =
        .error (.exception .alreadyInWriteTransaction)) ∧
    ¬ ∀ calls : List ProviderCall,
        AllSteps step FailsCleanly (Realm.opened Group.empty) calls := by
  constructor
  · exact ⟨(settle Group.empty (Group.empty.withRows ⟨"abc", .human, .empty⟩
      [Group.empty.rowFor ⟨"abc", .human, .empty⟩]) .threwInWrite).1, by decide⟩
  · intro h
    have hfirst := (h [.savePlayer ⟨"abc", .human, .empty⟩ .threwInWrite]).1
    have hends := (failsCleanly_iff rfl _).mp hfirst
    exact hends rfl .threwInWrite rfl rfl

end RealmDataProvider

end W3Stats

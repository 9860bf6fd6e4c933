import Mathlib.Data.Finmap
import Mathlib.Data.List.Perm.Basic

/-!
# Unordered tables with a key column

A table is a list of rows addressed by position.  Rows are appended at the end,
overwritten in place, or deleted by moving the last row over the deleted one, so
positions are not stable and the order of the rows carries no information.
What such a table means is the finite map from its keys to its values; the
lemmas here say what each of the three operations does to that map.
-/

namespace KeyedTable

variable {α κ β : Type*}

/-! ### The three row operations -/

/-- Delete row `i` by moving the last row over it. -/
def moveLastOver (rows : List α) (i : Nat) : List α :=
  match rows.getLast? with
  | none => rows
  | some last => (rows.set i last).dropLast

/-- The position of the first row whose key is `k`. -/
def findFirst [DecidableEq κ] (key : α → κ) (k : κ) (rows : List α) : Option Nat :=
  rows.findIdx? (fun r => decide (key r = k))

theorem findFirst_eq_none [DecidableEq κ] {key : α → κ} {k : κ} {rows : List α} :
    findFirst key k rows = none ↔ k ∉ rows.map key := by
  simp only [findFirst, List.findIdx?_eq_none_iff, decide_eq_false_iff_not, List.mem_map,
    not_exists, not_and]

theorem findFirst_eq_some [DecidableEq κ] {key : α → κ} {k : κ} {rows : List α} {i : Nat}
    (h : findFirst key k rows = some i) : ∃ hi : i < rows.length, key rows[i] = k := by
  obtain ⟨hi, hk, -⟩ := List.findIdx?_eq_some_iff_getElem.mp h
  exact ⟨hi, of_decide_eq_true hk⟩

/-- The search only reads the key column. -/
theorem findFirst_eq_findIdx_map [DecidableEq κ] (key : α → κ) (k : κ) (rows : List α) :
    findFirst key k rows = (rows.map key).findIdx? (fun x => decide (x = k)) := by
  rw [findFirst, List.findIdx?_map]
  rfl

/-- With distinct keys the row found is the row of the key. -/
theorem find?_key_eq_some [DecidableEq κ] {key : α → κ} {k : κ} {rows : List α} {r : α}
    (h : (rows.map key).Nodup) :
    rows.find? (fun r => decide (key r = k)) = some r ↔ r ∈ rows ∧ key r = k := by
  constructor
  · intro hfind
    exact ⟨List.mem_of_find?_eq_some hfind, by simpa using List.find?_some hfind⟩
  · rintro ⟨hr, rfl⟩
    cases hfind : rows.find? fun s => decide (key s = key r) with
    | none => exact absurd (List.find?_eq_none.mp hfind r hr) (by simp)
    | some s =>
      have hkey : key s = key r := by simpa using List.find?_some hfind
      rw [List.inj_on_of_nodup_map h (List.mem_of_find?_eq_some hfind) hr hkey]

theorem mem_of_mem_moveLastOver {rows : List α} {i : Nat} {r : α}
    (h : r ∈ moveLastOver rows i) : r ∈ rows := by
  unfold moveLastOver at h
  split at h
  · exact h
  · next last hlast =>
    rcases List.mem_or_eq_of_mem_set (List.mem_of_mem_dropLast h) with hmem | rfl
    · exact hmem
    · exact List.mem_of_getLast? hlast

theorem moveLastOver_perm {rows : List α} {i : Nat} (hi : i < rows.length) :
    (moveLastOver rows i).Perm (rows.eraseIdx i) := by
  rcases List.eq_nil_or_concat' rows with rfl | ⟨init, last, rfl⟩
  · exact absurd hi (Nat.not_lt_zero i)
  · simp only [moveLastOver, List.getLast?_concat]
    by_cases h : i < init.length
    · rw [List.set_append_left _ _ h, List.dropLast_concat, List.eraseIdx_append_of_lt_length h]
      exact (List.set_perm_cons_eraseIdx h last).trans (List.perm_append_singleton _ _).symm
    · -- the deleted row is the last one: it is moved over itself
      have hlen : i = init.length := by
        simp only [List.length_append, List.length_singleton] at hi
        omega
      subst hlen
      simp [List.eraseIdx_append_of_length_le]

theorem perm_cons_moveLastOver {rows : List α} {i : Nat} (hi : i < rows.length) :
    rows.Perm (rows[i] :: moveLastOver rows i) :=
  (List.getElem_cons_eraseIdx_perm hi).symm.trans ((moveLastOver_perm hi).symm.cons _)

theorem length_moveLastOver {rows : List α} {i : Nat} (hi : i < rows.length) :
    (moveLastOver rows i).length + 1 = rows.length := by
  have h := (perm_cons_moveLastOver hi).length_eq
  rw [List.length_cons] at h
  exact h.symm

theorem map_moveLastOver (f : α → β) (rows : List α) (i : Nat) :
    (moveLastOver rows i).map f = moveLastOver (rows.map f) i := by
  simp only [moveLastOver, List.getLast?_map]
  cases h : rows.getLast? with
  | none => rfl
  | some last => simp only [Option.map_some, List.map_dropLast, List.map_set]

/-! ### Updating one row -/

theorem modify_length_append (rows : List α) (r : α) (f : α → α) :
    (rows ++ [r]).modify rows.length f = rows ++ [f r] := by
  induction rows with
  | nil => rfl
  | cons head tail ih => exact congrArg (head :: ·) ih

theorem modify_eq_set {rows : List α} {i : Nat} (hi : i < rows.length) (f : α → α) :
    rows.modify i f = rows.set i (f rows[i]) := by
  induction rows generalizing i with
  | nil => exact absurd hi (Nat.not_lt_zero i)
  | cons head tail ih =>
    cases i with
    | zero => rfl
    | succ i => exact congrArg (head :: ·) (ih (Nat.lt_of_succ_lt_succ hi))

/-! ### Keys stay distinct -/

section Keys

variable {key : α → κ} {val : α → β} {rows : List α}

theorem nodupKeys_map (h : (rows.map key).Nodup) :
    (rows.map (fun r => (⟨key r, val r⟩ : Sigma fun _ : κ => β))).NodupKeys := by
  unfold List.NodupKeys
  simpa [List.keys, Function.comp_def] using h

theorem nodup_append_row {r : α} (h : (rows.map key).Nodup) (hr : key r ∉ rows.map key) :
    ((rows ++ [r]).map key).Nodup := by
  rw [List.map_append, List.map_singleton]
  exact List.Nodup.append h (List.nodup_singleton _) (by simpa using hr)

theorem map_set_of_key_eq {r : α} {i : Nat} (hi : i < rows.length) (hr : key r = key rows[i]) :
    (rows.set i r).map key = rows.map key := by
  have hlen : i < (rows.map key).length := by rwa [List.length_map]
  have hkey : key rows[i] = (rows.map key)[i] := (List.getElem_map key).symm
  rw [List.map_set, hr, hkey, List.set_getElem_self]

theorem nodup_cons_moveLastOver {i : Nat} (h : (rows.map key).Nodup) (hi : i < rows.length) :
    ((rows[i] :: moveLastOver rows i).map key).Nodup :=
  ((perm_cons_moveLastOver hi).map key).nodup_iff.mp h

theorem nodup_moveLastOver {i : Nat} (h : (rows.map key).Nodup) (hi : i < rows.length) :
    ((moveLastOver rows i).map key).Nodup :=
  (List.nodup_cons.mp (nodup_cons_moveLastOver h hi)).2

end Keys

/-! ### The map of a table -/

/-- The finite map from the keys of the rows to their values. -/
def tabulate [DecidableEq κ] (key : α → κ) (val : α → β) (rows : List α) :
    Finmap (fun _ : κ => β) :=
  (rows.map (fun r => (⟨key r, val r⟩ : Sigma fun _ : κ => β))).toFinmap

variable [DecidableEq κ] {key : α → κ} {val : α → β} {rows : List α}

theorem lookup_tabulate (h : (rows.map key).Nodup) {k : κ} {v : β} :
    (tabulate key val rows).lookup k = some v ↔ ∃ r ∈ rows, key r = k ∧ val r = v := by
  rw [tabulate, Finmap.dlookup_list_toFinmap, ← Option.mem_def,
    List.mem_dlookup_iff (nodupKeys_map h), List.mem_map]
  constructor
  · rintro ⟨r, hr, heq⟩
    cases heq
    exact ⟨r, hr, rfl, rfl⟩
  · rintro ⟨r, hr, rfl, rfl⟩
    exact ⟨r, hr, rfl⟩

theorem mem_tabulate (h : (rows.map key).Nodup) {k : κ} :
    k ∈ tabulate key val rows ↔ k ∈ rows.map key := by
  rw [Finmap.mem_iff, List.mem_map]
  constructor
  · rintro ⟨v, hv⟩
    obtain ⟨r, hr, hk, -⟩ := (lookup_tabulate h).mp hv
    exact ⟨r, hr, hk⟩
  · rintro ⟨r, hr, hk⟩
    exact ⟨val r, (lookup_tabulate h).mpr ⟨r, hr, hk, rfl⟩⟩

/-- The entries of the map are the rows, each exactly once. -/
theorem entries_tabulate (h : (rows.map key).Nodup) :
    (tabulate key val rows).entries =
      ↑(rows.map (fun r => (⟨key r, val r⟩ : Sigma fun _ : κ => β))) := by
  refine (Multiset.Nodup.ext (Finmap.nodup_entries _)
    (Multiset.coe_nodup.mpr (List.NodupKeys.nodup (nodupKeys_map h)))).mpr fun x => ?_
  obtain ⟨k, v⟩ := x
  rw [← Finmap.lookup_eq_some_iff, lookup_tabulate h, Multiset.mem_coe, List.mem_map]
  constructor
  · rintro ⟨r, hr, rfl, rfl⟩
    exact ⟨r, hr, rfl⟩
  · rintro ⟨r, hr, heq⟩
    cases heq
    exact ⟨r, hr, rfl, rfl⟩

theorem tabulate_perm {rows' : List α} (hp : rows.Perm rows') (h : (rows.map key).Nodup) :
    tabulate key val rows = tabulate key val rows' := by
  refine Finmap.ext_lookup fun k => Option.ext fun v => ?_
  rw [lookup_tabulate h, lookup_tabulate ((hp.map key).nodup_iff.mp h)]
  simp only [hp.mem_iff]

/-! ### What the operations do to the map -/

theorem tabulate_cons (r : α) (rows : List α) :
    tabulate key val (r :: rows) = (tabulate key val rows).insert (key r) (val r) :=
  Finmap.toFinmap_cons _ _ _

/-- Appending a row with a fresh key inserts it. -/
theorem tabulate_append_row {r : α} (h : (rows.map key).Nodup) (hr : key r ∉ rows.map key) :
    tabulate key val (rows ++ [r]) = (tabulate key val rows).insert (key r) (val r) := by
  rw [tabulate_perm (List.perm_append_singleton r rows) (nodup_append_row h hr), tabulate_cons]

/-- Overwriting a row under its own key replaces the value of that key. -/
theorem tabulate_set {r : α} {i : Nat} (h : (rows.map key).Nodup) (hi : i < rows.length)
    (hr : key r = key rows[i]) :
    tabulate key val (rows.set i r) = (tabulate key val rows).insert (key r) (val r) := by
  have hset : ((rows.set i r).map key).Nodup := by rwa [map_set_of_key_eq hi hr]
  have hold : tabulate key val rows =
      (tabulate key val (rows.eraseIdx i)).insert (key rows[i]) (val rows[i]) := by
    rw [tabulate_perm (List.getElem_cons_eraseIdx_perm hi).symm h, tabulate_cons]
  rw [tabulate_perm (List.set_perm_cons_eraseIdx hi r) hset, tabulate_cons, hold, ← hr,
    Finmap.insert_insert]

/-- Moving the last row over row `i` erases the key of row `i` and no other. -/
theorem tabulate_moveLastOver {i : Nat} (h : (rows.map key).Nodup) (hi : i < rows.length) :
    tabulate key val (moveLastOver rows i) = (tabulate key val rows).erase (key rows[i]) := by
  have hcons := nodup_cons_moveLastOver h hi
  have hfresh : key rows[i] ∉ (moveLastOver rows i).map key := (List.nodup_cons.mp hcons).1
  rw [tabulate_perm (perm_cons_moveLastOver hi) h, tabulate_cons]
  apply Finmap.ext_lookup
  intro k
  by_cases hk : k = key rows[i]
  · subst hk
    rw [Finmap.lookup_erase, Finmap.lookup_eq_none]
    exact fun hmem => hfresh ((mem_tabulate (List.nodup_cons.mp hcons).2).mp hmem)
  · rw [Finmap.lookup_erase_ne hk, Finmap.lookup_insert_of_ne _ hk]

/-- A row found by its key carries the value of that key. -/
theorem lookup_of_findFirst (val : α → β) {k : κ} {i : Nat} (h : (rows.map key).Nodup)
    (hf : findFirst key k rows = some i) :
    ∃ hi : i < rows.length, key rows[i] = k ∧
      (tabulate key val rows).lookup k = some (val rows[i]) := by
  obtain ⟨hi, hk⟩ := findFirst_eq_some hf
  exact ⟨hi, hk, (lookup_tabulate h).mpr ⟨rows[i], List.getElem_mem hi, hk, rfl⟩⟩

theorem lookup_of_findFirst_none {k : κ} (h : (rows.map key).Nodup)
    (hf : findFirst key k rows = none) : (tabulate key val rows).lookup k = none := by
  rw [Finmap.lookup_eq_none, mem_tabulate h]
  exact findFirst_eq_none.mp hf

end KeyedTable

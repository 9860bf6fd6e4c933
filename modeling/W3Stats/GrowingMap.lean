import Mathlib.Tactic.Common

/-!
# Partial maps that only grow

Partial maps to which others are added, as long as the two say the same wherever both
say something.  What was added once stays, so it can be added again at any time.
-/

namespace GrowingMap

variable {α β : Type*} {m n c : α → Option β}

/-- The two say the same where both say something. -/
def Compatible (m c : α → Option β) : Prop := ∀ a b b', m a = some b → c a = some b' → b = b'

def Included (c m : α → Option β) : Prop := ∀ a b, c a = some b → m a = some b

def merge (m c : α → Option β) : α → Option β := fun a => (m a).or (c a)

theorem Included.refl (m : α → Option β) : Included m m := fun _ _ h => h

theorem Included.trans (hcm : Included c m) (hmn : Included m n) : Included c n :=
  fun a b h => hmn a b (hcm a b h)

theorem Included.compatible (h : Included c m) : Compatible m c := by
  intro a b b' hm hc
  exact Option.some.inj (hm.symm.trans (h a b' hc))

theorem included_merge (m c : α → Option β) : Included m (merge m c) := by
  intro a b h
  rw [merge, h]
  rfl

theorem Compatible.included_merge (h : Compatible m c) : Included c (merge m c) := by
  intro a b hc
  unfold merge
  cases hm : m a with
  | none => exact hc
  | some b' => rw [h a b' b hm hc, Option.some_or]

theorem Included.merge_eq (h : Included c m) : merge m c = m := by
  funext a
  unfold merge
  cases hm : m a with
  | some b => rfl
  | none =>
    rw [Option.none_or]
    apply Option.eq_none_iff_forall_not_mem.mpr
    intro b hb
    rw [h a b hb] at hm
    cases hm

open Classical in
/-- Add `c` if it is compatible, and say whether it was. -/
noncomputable def extend (m c : α → Option β) : (α → Option β) × Bool :=
  if Compatible m c then (merge m c, true) else (m, false)

theorem extend_of_compatible (h : Compatible m c) : extend m c = (merge m c, true) := if_pos h

theorem extend_of_not_compatible (h : ¬ Compatible m c) : extend m c = (m, false) := if_neg h

theorem included_extend (m c : α → Option β) : Included m (extend m c).1 := by
  by_cases h : Compatible m c
  · rw [extend_of_compatible h]
    exact included_merge m c
  · rw [extend_of_not_compatible h]
    exact Included.refl m

/-- What was added is there. -/
theorem included_of_extended (h : (extend m c).2 = true) : Included c (extend m c).1 := by
  by_cases hc : Compatible m c
  · rw [extend_of_compatible hc]
    exact hc.included_merge
  · rw [extend_of_not_compatible hc] at h
    cases h

/-- What is there can be added again, and changes nothing. -/
theorem Included.extend_eq (h : Included c m) : extend m c = (m, true) := by
  rw [extend_of_compatible h.compatible, h.merge_eq]

end GrowingMap

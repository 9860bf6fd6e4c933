import Mathlib.Data.List.Basic
import Mathlib.Order.Lattice

/-!
# Binary search

`std::lower_bound` takes the middle one of the elements left and goes on with one half
of them.  Where the elements that are below come first, it ends at the first one
that is not; anywhere else it still ends somewhere.
-/

namespace LowerBound

variable {α κ : Type*}

/-- The search among the `len` elements from `first` on. -/
def search (below : α → Bool) (l : List α) : (fuel first len : Nat) → Nat
  | 0, first, _ => first
  | fuel + 1, first, len =>
    if len = 0 then first
    else
      let half := len / 2
      if l[first + half]?.any below then
        search below l fuel (first + half + 1) (len - (half + 1))
      else search below l fuel first half

def lowerBound (below : α → Bool) (l : List α) : Nat := search below l l.length 0 l.length

/-- The element that the search ends at, if it is one of those looked for. -/
def find? (below sought : α → Bool) (l : List α) : Option α :=
  l[lowerBound below l]?.filter sought

theorem of_find?_eq_some {below sought : α → Bool} {l : List α} {a : α}
    (h : find? below sought l = some a) : a ∈ l ∧ sought a = true := by
  obtain ⟨hget, hsought⟩ := Option.filter_eq_some_iff.mp h
  exact ⟨List.mem_of_getElem? hget, hsought⟩

/-- What is left of `first` is below, what is right of `last` is not. -/
structure Cut (below : α → Bool) (l : List α) (first last : Nat) : Prop where
  last_le : last ≤ l.length
  left : ∀ i a, l[i]? = some a → i < first → below a = true
  right : ∀ i a, l[i]? = some a → last ≤ i → below a = false

section Search

variable {below : α → Bool} {l : List α}

theorem getElem?_of_pairwise {r : α → α → Prop} (h : l.Pairwise r) {i j : Nat} {a b : α}
    (ha : l[i]? = some a) (hb : l[j]? = some b) (hlt : i < j) : r a b := by
  obtain ⟨hi, rfl⟩ := List.getElem?_eq_some_iff.mp ha
  obtain ⟨hj, rfl⟩ := List.getElem?_eq_some_iff.mp hb
  exact List.pairwise_iff_getElem.mp h i j hi hj hlt

/-- Each halving keeps the cut. -/
theorem Cut.search (hbelow : l.Pairwise fun a b => below b = true → below a = true)
    {fuel first len : Nat} (h : Cut below l first (first + len)) (hfuel : len ≤ fuel) :
    Cut below l (LowerBound.search below l fuel first len)
      (LowerBound.search below l fuel first len) := by
  induction fuel generalizing first len with
  | zero =>
    obtain rfl : len = 0 := by omega
    exact h
  | succ fuel ih =>
    rw [LowerBound.search]
    by_cases hempty : len = 0
    · subst hempty
      rw [if_pos rfl]
      exact h
    rw [if_neg hempty]
    dsimp only
    have hlast := h.last_le
    obtain ⟨middle, hmiddle⟩ : ∃ middle, l[first + len / 2]? = some middle :=
      ⟨_, List.getElem?_eq_getElem (by omega)⟩
    rw [hmiddle, Option.any_some]
    cases hmid : below middle with
    | true =>
      have heq : first + len / 2 + 1 + (len - (len / 2 + 1)) = first + len := by omega
      rw [if_pos rfl]
      apply ih _ (by omega)
      rw [heq]
      refine ⟨hlast, fun i a ha hi => ?_, h.right⟩
      rcases Nat.lt_or_eq_of_le (Nat.le_of_lt_succ hi) with hlt | rfl
      · exact getElem?_of_pairwise hbelow ha hmiddle hlt hmid
      · rw [hmiddle] at ha
        exact Option.some.inj ha ▸ hmid
    | false =>
      rw [if_neg Bool.false_ne_true]
      apply ih _ (by omega)
      refine ⟨by omega, h.left, fun i a ha hi => ?_⟩
      rcases Nat.lt_or_eq_of_le hi with hlt | rfl
      · by_contra hbelow'
        rw [getElem?_of_pairwise hbelow hmiddle ha hlt (by simpa using hbelow')] at hmid
        cases hmid
      · rw [hmiddle] at ha
        exact Option.some.inj ha ▸ hmid

theorem cut_lowerBound (hbelow : l.Pairwise fun a b => below b = true → below a = true) :
    Cut below l (lowerBound below l) (lowerBound below l) := by
  apply Cut.search hbelow _ le_rfl
  refine ⟨(Nat.zero_add _).le, fun i a _ hi => absurd hi (Nat.not_lt_zero _), fun i a ha hi => ?_⟩
  have hlt := (List.getElem?_eq_some_iff.mp ha).1
  omega

/-- The linear search ends at `n` if nothing on its left is sought, and on its right only
    if the element there is. -/
theorem find?_eq_filter_getElem? {sought : α → Bool} {n : Nat}
    (hleft : ∀ i a, l[i]? = some a → i < n → sought a = false)
    (hright : ∀ i a b, l[n]? = some b → sought b = false → l[i]? = some a → n < i →
      sought a = false) :
    l.find? sought = l[n]?.filter sought := by
  cases hfound : l[n]?.filter sought with
  | some found =>
    obtain ⟨hget, hsought⟩ := Option.filter_eq_some_iff.mp hfound
    obtain ⟨hlt, hget⟩ := List.getElem?_eq_some_iff.mp hget
    apply List.find?_eq_some_iff_getElem.mpr
    refine ⟨hsought, n, hlt, hget, fun i hi => ?_⟩
    rw [hleft i _ (List.getElem?_eq_getElem (hi.trans hlt)) hi]
    rfl
  | none =>
    apply List.find?_eq_none.mpr
    intro a ha
    rw [Bool.not_eq_true]
    obtain ⟨i, hi⟩ := List.mem_iff_getElem?.mp ha
    rcases lt_trichotomy i n with hlt | rfl | hgt
    · exact hleft i a hi hlt
    · simpa [hi] using hfound
    · obtain ⟨middle, hmiddle⟩ : ∃ middle, l[n]? = some middle :=
        ⟨_, List.getElem?_eq_getElem (hgt.trans (List.getElem?_eq_some_iff.mp hi).1)⟩
      have hnot : sought middle = false := by simpa [hmiddle] using hfound
      exact hright i a middle hmiddle hnot hi hgt

end Search

/-- **In a list sorted by a key the binary search finds what the linear one finds.** -/
theorem find?_eq_find? [LinearOrder κ] {key : α → κ} {x : κ} {below : α → Bool} {l : List α}
    (hsorted : l.Pairwise fun a b => key a ≤ key b)
    (hbelow : ∀ a ∈ l, below a = decide (key a < x)) :
    find? below (fun a => decide (key a = x)) l = l.find? fun a => decide (key a = x) := by
  have hcut : Cut below l (lowerBound below l) (lowerBound below l) := by
    apply cut_lowerBound
    apply hsorted.imp_of_mem
    intro a b ha hb hle
    rw [hbelow a ha, hbelow b hb, decide_eq_true_iff, decide_eq_true_iff]
    exact hle.trans_lt
  symm
  apply find?_eq_filter_getElem?
  · intro i a hi hlt
    have hless := hcut.left i a hi hlt
    rw [hbelow a (List.mem_of_getElem? hi), decide_eq_true_iff] at hless
    exact decide_eq_false hless.ne
  · intro i a b hb hne hi hgt
    have hnot := hcut.right _ b hb le_rfl
    rw [hbelow b (List.mem_of_getElem? hb), decide_eq_false_iff_not, not_lt] at hnot
    rw [decide_eq_false_iff_not] at hne
    have hgreater : x < key b := lt_of_le_of_ne hnot (Ne.symm hne)
    exact decide_eq_false (hgreater.trans_le (getElem?_of_pairwise hsorted hb hi hgt)).ne'

end LowerBound

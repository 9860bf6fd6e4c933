import Mathlib.Data.List.Basic
import Mathlib.Order.Lattice

/-!
# Walking two sorted lists side by side

Two lists in strictly ascending order of their keys are walked from the left, the
smaller key first; entries with one key are met together.  What is done at each
stop and left alone where only the second list has the key is a join: the first
list from left to right, each entry with the entry of its key in the second.
-/

namespace SortedZip

variable {α β γ κ : Type*} [LinearOrder κ] {f : α → κ} {g : β → κ}

/-- The stops from `a` on, where `rest` walks what comes after `a`. -/
def zipAfter (f : α → κ) (g : β → κ) (a : α) (rest : List β → List (Option α × Option β)) :
    List β → List (Option α × Option β)
  | [] => (some a, none) :: rest []
  | b :: bs =>
    if f a = g b then (some a, some b) :: rest bs
    else if f a < g b then (some a, none) :: rest (b :: bs)
    else (none, some b) :: zipAfter f g a rest bs

def zipMatching (f : α → κ) (g : β → κ) : List α → List β → List (Option α × Option β)
  | [], bs => bs.map fun b => (none, some b)
  | a :: as, bs => zipAfter f g a (zipMatching f g as) bs

/-- Every entry of the first list is met once, in its order. -/
theorem filterMap_fst_zipMatching (as : List α) (bs : List β) :
    (zipMatching f g as bs).filterMap Prod.fst = as := by
  induction as generalizing bs with
  | nil => simp [zipMatching]
  | cons a as ih =>
    rw [zipMatching]
    induction bs with
    | nil => rw [zipAfter, List.filterMap_cons, ih]
    | cons b bs ihb =>
      rw [zipAfter]
      split_ifs
      · rw [List.filterMap_cons, ih]
      · rw [List.filterMap_cons, ih]
      · rw [List.filterMap_cons, ihb]

/-- Keys in strictly ascending order. -/
def Ascending (f : α → κ) (as : List α) : Prop := as.Pairwise fun a b => f a < f b

theorem Ascending.nodup {as : List α} (h : Ascending f as) : (as.map f).Nodup :=
  (List.pairwise_map.mpr h).imp ne_of_lt

/-- Keys below those of the second list are not found in it. -/
theorem find?_of_lt {x : κ} {bs : List β} (h : ∀ b ∈ bs, x < g b) :
    bs.find? (fun b => decide (g b = x)) = none := by
  apply List.find?_eq_none.mpr
  intro b hb
  simpa using (h b hb).ne'

theorem find?_cons_of_lt {x : κ} {b : β} {bs : List β} (h : g b < x) :
    (b :: bs).find? (fun b => decide (g b = x)) = bs.find? fun b => decide (g b = x) :=
  List.find?_cons_of_neg (by simpa using h.ne)

/-- What happens at the entries after `a` does not see the entries of the second
    list up to `a`'s key. -/
theorem flatMap_find?_cons {F : Option α × Option β → List γ} {as : List α} {b : β} {bs : List β}
    (h : ∀ x ∈ as, g b < f x) :
    (as.flatMap fun x => F (some x, (b :: bs).find? fun y => decide (g y = f x))) =
      as.flatMap fun x => F (some x, bs.find? fun y => decide (g y = f x)) := by
  apply List.flatMap_congr
  intro x hx
  rw [find?_cons_of_lt (h x hx)]

/-- The walk is a join. -/
theorem flatMap_zipMatching {F : Option α × Option β → List γ} (hF : ∀ b, F (none, some b) = [])
    {as : List α} {bs : List β} (has : Ascending f as) (hbs : Ascending g bs) :
    (zipMatching f g as bs).flatMap F =
      as.flatMap fun x => F (some x, bs.find? fun y => decide (g y = f x)) := by
  induction as generalizing bs with
  | nil =>
    simp only [zipMatching, List.flatMap_map, List.flatMap_nil]
    exact List.flatMap_eq_nil_iff.mpr fun b _ => hF b
  | cons a as ih =>
    obtain ⟨ha, has⟩ := List.pairwise_cons.mp has
    rw [zipMatching, List.flatMap_cons]
    induction bs with
    | nil =>
      rw [zipAfter, List.flatMap_cons, ih has List.Pairwise.nil]
      rfl
    | cons b bs ihb =>
      obtain ⟨hb, hbs'⟩ := List.pairwise_cons.mp hbs
      rw [zipAfter]
      rcases lt_trichotomy (f a) (g b) with hlt | heq | hgt
      · -- only the first list has the key
        have hall : ∀ y ∈ b :: bs, f a < g y := by
          intro y hy
          rcases List.mem_cons.mp hy with rfl | hy
          · exact hlt
          · exact hlt.trans (hb y hy)
        rw [if_neg hlt.ne, if_pos hlt, List.flatMap_cons, ih has hbs, find?_of_lt hall]
      · have htail : ∀ x ∈ as, g b < f x := fun x hx => heq ▸ ha x hx
        rw [if_pos heq, List.flatMap_cons, ih has hbs', flatMap_find?_cons htail,
          List.find?_cons_of_pos (by simp [heq])]
      · -- only the second list has the key
        have htail : ∀ x ∈ as, g b < f x := fun x hx => hgt.trans (ha x hx)
        rw [if_neg hgt.ne', if_neg hgt.not_gt, List.flatMap_cons, hF, List.nil_append, ihb hbs',
          flatMap_find?_cons htail, find?_cons_of_lt hgt]

end SortedZip

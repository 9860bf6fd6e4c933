import Mathlib.Tactic.Common
import Mathlib.Tactic.Linarith

/-!
# Traps, uncaught exceptions and the 64-bit `Int`

What ends the process while a handler runs: an arithmetic trap of Swift, an
index past the end of an array, a `Double` that does not fit an `Int`, or an
Objective-C exception, which no Swift `catch` stops.  A handler is a function
into `Except Trap`.
-/

namespace W3Stats

/-- The Objective-C exceptions Realm raises on the paths the app takes. -/
inductive NSException where
  | alreadyInWriteTransaction
  | notInWriteTransaction
  | existingPrimaryKey (objectType primaryValue : String)
deriving DecidableEq, Repr

inductive Trap where
  | exception (e : NSException)
  | arithmeticOverflow
  | indexOutOfRange
  | doubleOutOfRange
deriving DecidableEq, Repr

/-! ### `Int` -/

/-- Swift's `Int` on a 64-bit device. -/
@[ext] structure SwiftInt where
  val : Int
  lower : -2 ^ 63 ≤ val
  upper : val < 2 ^ 63
deriving DecidableEq, Repr

namespace SwiftInt

instance : Zero SwiftInt := ⟨⟨0, by decide, by decide⟩⟩
instance : One SwiftInt := ⟨⟨1, by decide, by decide⟩⟩

/-- `Int.max`. -/
def max : SwiftInt := ⟨2 ^ 63 - 1, by decide, by decide⟩

@[simp] theorem val_zero : (0 : SwiftInt).val = 0 := rfl
@[simp] theorem val_one : (1 : SwiftInt).val = 1 := rfl
@[simp] theorem val_max : max.val = 2 ^ 63 - 1 := rfl

/-- `"\(n)"`. -/
def description (a : SwiftInt) : String := toString a.val

/-- `a + b`, which traps when the sum is not a 64-bit value. -/
def add (a b : SwiftInt) : Except Trap SwiftInt :=
  if h : -2 ^ 63 ≤ a.val + b.val ∧ a.val + b.val < 2 ^ 63 then
    .ok ⟨a.val + b.val, h.1, h.2⟩
  else
    .error .arithmeticOverflow

theorem add_eq_ok {a b c : SwiftInt} : a.add b = .ok c ↔ c.val = a.val + b.val := by
  unfold add
  split
  · rename_i h
    constructor
    · intro heq
      cases heq
      rfl
    · intro hc
      exact congrArg Except.ok (SwiftInt.ext hc.symm)
  · rename_i h
    constructor
    · intro heq
      cases heq
    · intro hc
      exact (h ⟨hc ▸ c.lower, hc ▸ c.upper⟩).elim

end SwiftInt

theorem bind_eq_ok {α β : Type} {x : Except Trap α} {f : α → Except Trap β} {b : β} :
    x >>= f = .ok b ↔ ∃ a, x = .ok a ∧ f a = .ok b := by
  cases x with
  | ok a =>
    constructor
    · intro h
      exact ⟨a, rfl, h⟩
    · rintro ⟨a', heq, h⟩
      cases heq
      exact h
  | error t =>
    constructor
    · intro h
      cases h
    · rintro ⟨a, heq, -⟩
      cases heq

/-! ### Computations that can only overflow -/

/-- The computation returns a value with the property `Q`, or it traps on a sum that
    is at most `bound` and past `Int.max`. -/
def Checked {α : Type} (bound : Int) (Q : α → Prop) (x : Except Trap α) : Prop :=
  (∃ a, x = .ok a ∧ Q a) ∨ (x = .error .arithmeticOverflow ∧ 2 ^ 63 ≤ bound)

namespace Checked

variable {α β : Type} {m n : Int} {Q : α → Prop} {R : β → Prop}

theorem of_ok {a : α} (h : Q a) : Checked n Q (.ok a) := Or.inl ⟨a, rfl, h⟩

theorem bind {x : Except Trap α} {f : α → Except Trap β} (hx : Checked m Q x) (hle : m ≤ n)
    (hf : ∀ a, Q a → Checked n R (f a)) : Checked n R (x >>= f) := by
  rcases hx with ⟨a, rfl, ha⟩ | ⟨rfl, hover⟩
  · exact hf a ha
  · exact Or.inr ⟨rfl, by omega⟩

/-- When the value returned shows that the bound fits, the bound decides. -/
theorem ne_overflow_iff {x : Except Trap α} (hx : Checked n Q x) (hQ : ∀ a, Q a → n < 2 ^ 63) :
    x ≠ .error .arithmeticOverflow ↔ n < 2 ^ 63 := by
  rcases hx with ⟨a, rfl, ha⟩ | ⟨rfl, hover⟩
  · exact ⟨fun _ => hQ a ha, fun _ => by simp⟩
  · exact ⟨fun h => absurd rfl h, fun h => by omega⟩

theorem error_eq {x : Except Trap α} (hx : Checked n Q x) {trap : Trap} (h : x = .error trap) :
    trap = .arithmeticOverflow := by
  rcases hx with ⟨a, rfl, -⟩ | ⟨rfl, -⟩
  · cases h
  · cases h
    rfl

end Checked

/-- A sum of two values that are not negative is exact or overflows. -/
theorem SwiftInt.add_checked {a b : SwiftInt} (ha : 0 ≤ a.val) (hb : 0 ≤ b.val) :
    Checked (a.val + b.val) (fun c => c.val = a.val + b.val) (a.add b) := by
  by_cases h : a.val + b.val < 2 ^ 63
  · exact Or.inl ⟨⟨a.val + b.val, by omega, h⟩, add_eq_ok.mpr rfl, rfl⟩
  · refine Or.inr ⟨?_, by omega⟩
    unfold add
    rw [dif_neg (fun hc => h hc.2)]

end W3Stats

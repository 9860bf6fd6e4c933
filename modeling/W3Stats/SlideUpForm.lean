import Mathlib.Tactic.Common

/-!
# The form that slides up and the view that blurs the background

Each of the two screens has one form whose height constraint is animated between
zero and a constant, and one overlay behind it.  The overlay is shown at once and
hidden in the completion of an animation, which runs later: `pendingUnblurs`
counts the completions still to come.
-/

namespace W3Stats

structure SlideUpForm where
  heightConstraint : Nat
  blurIsHidden : Bool
  pendingUnblurs : Nat
deriving DecidableEq, Repr

namespace SlideUpForm

/-- As the storyboard builds it. -/
def initial : SlideUpForm := ⟨0, true, 0⟩

def IsOpen (form : SlideUpForm) : Prop := form.heightConstraint ≠ 0

instance (form : SlideUpForm) : Decidable form.IsOpen := by
  unfold IsOpen
  infer_instance

def animateHeight (constant : Nat) (form : SlideUpForm) : SlideUpForm :=
  { form with heightConstraint := constant }

def blurBackground (form : SlideUpForm) : SlideUpForm := { form with blurIsHidden := false }

def unblurBackground (form : SlideUpForm) : SlideUpForm :=
  { form with pendingUnblurs := form.pendingUnblurs + 1 }

/-- The completion of the earliest `unblurBackground` still pending. -/
def unblurCompleted (form : SlideUpForm) : SlideUpForm :=
  if form.pendingUnblurs = 0 then form
  else { form with blurIsHidden := true, pendingUnblurs := form.pendingUnblurs - 1 }

/-- `blurBackground` and the animation to a height. -/
def slideUp (constant : Nat) (form : SlideUpForm) : SlideUpForm :=
  form.blurBackground.animateHeight constant

/-- The animation to height zero and `unblurBackground`. -/
def slideDown (form : SlideUpForm) : SlideUpForm := (form.animateHeight 0).unblurBackground

@[simp] theorem isOpen_slideUp {constant : Nat} (form : SlideUpForm) :
    (form.slideUp constant).IsOpen ↔ constant ≠ 0 := Iff.rfl

@[simp] theorem not_isOpen_slideDown (form : SlideUpForm) : ¬ form.slideDown.IsOpen := by
  simp [IsOpen, slideDown, animateHeight, unblurBackground]

@[simp] theorem isOpen_unblurCompleted (form : SlideUpForm) :
    form.unblurCompleted.IsOpen ↔ form.IsOpen := by
  unfold unblurCompleted
  split <;> rfl

end SlideUpForm

end W3Stats

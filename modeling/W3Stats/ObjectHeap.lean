import Mathlib.Data.List.Infix
import Mathlib.Logic.Function.Basic

/-!
# Mutable objects and references to them

A heap is the list of the objects created so far, and a reference the position of
its object.  Objects are created at the end and written in place, so a reference
stays good.  A record of references reads as a family of objects; the lemmas say
what creating and writing objects does to such a family.
-/

namespace ObjectHeap

variable {α ι : Type*}

abbrev Ref := Nat

/-- The heap with one more object, and the reference to it. -/
def new (a : α) (heap : List α) : List α × Ref := (heap ++ [a], heap.length)

/-- The object of a reference; the default stands in where there is none. -/
def read [Inhabited α] (heap : List α) (ref : Ref) : α := heap.getD ref default

def write (heap : List α) (ref : Ref) (a : α) : List α := heap.set ref a

/-- The objects of a family of references. -/
def contents [Inhabited α] (heap : List α) (refs : ι → Ref) : ι → α := fun i => read heap (refs i)

/-- Each reference of the family has its object. -/
def Live (heap : List α) (refs : ι → Ref) : Prop := ∀ i, refs i < heap.length

variable {heap heap' : List α} {refs : ι → Ref}

theorem Live.mono (h : Live heap refs) (hle : heap.length ≤ heap'.length) : Live heap' refs :=
  fun i => Nat.lt_of_lt_of_le (h i) hle

@[simp] theorem length_write (heap : List α) (ref : Ref) (a : α) :
    (write heap ref a).length = heap.length := by
  simp [write]

variable [Inhabited α]

theorem read_of_extends {ref : Ref} (href : ref < heap.length) (h : heap <+: heap') :
    read heap' ref = read heap ref := by
  obtain ⟨added, rfl⟩ := h
  simp [read, List.getElem?_append_left href]

/-- Creating objects changes none that was there. -/
theorem contents_of_extends (hlive : Live heap refs) (h : heap <+: heap') :
    contents heap' refs = contents heap refs :=
  funext fun i => read_of_extends (hlive i) h

theorem read_write_self {ref : Ref} (href : ref < heap.length) (a : α) :
    read (write heap ref a) ref = a := by
  simp [read, write, href]

theorem read_write_of_ne {ref ref' : Ref} (h : ref' ≠ ref) (a : α) :
    read (write heap ref a) ref' = read heap ref' := by
  simp [read, write, Ne.symm h]

/-- In a family without sharing a write changes one object. -/
theorem contents_write_self [DecidableEq ι] (hrefs : Function.Injective refs)
    (hlive : Live heap refs) (i : ι) (a : α) :
    contents (write heap (refs i) a) refs = Function.update (contents heap refs) i a := by
  funext j
  by_cases hj : j = i
  · subst hj
    rw [Function.update_self]
    exact read_write_self (hlive j) a
  · rw [Function.update_of_ne hj]
    exact read_write_of_ne (fun heq => hj (hrefs heq)) a

end ObjectHeap

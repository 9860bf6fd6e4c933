import Mathlib.Data.List.Basic
import W3Stats.SwiftRuntime

/-!
# Decimal texts

`Int(text)`, the decimal parser of Swift, and the texts it is applied to: strings
of ASCII digits.  The parser accepts a sign and rejects a value that is no 64-bit
`Int`; on a text of digits only the second matters, and the value is the one the
digits spell, leading zeros included.
-/

namespace W3Stats

/-! ### `Int(text)` -/

namespace SwiftInt

/-- `Int(exactly:)`. -/
def exactly (n : Int) : Option SwiftInt :=
  if h : -2 ^ 63 ≤ n ∧ n < 2 ^ 63 then some ⟨n, h.1, h.2⟩ else none

/-- The parser at one more character: ten times the value and, behind a minus sign
    less, otherwise plus, the digit; `nil` as soon as one of the two overflows. -/
def appendDigit (isNegative : Bool) (value : SwiftInt) (c : Char) : Option SwiftInt :=
  if c.isDigit then do
    let scaled ← exactly (value.val * 10)
    let digit : Int := (c.toNat - '0'.toNat : Nat)
    exactly (if isNegative then scaled.val - digit else scaled.val + digit)
  else none

def parseDigits (isNegative : Bool) (digits : List Char) : Option SwiftInt :=
  if digits = [] then none else digits.foldlM (appendDigit isNegative) 0

/-- `Int(text)`. -/
def ofText (text : String) : Option SwiftInt :=
  match text.toList with
  | '-' :: digits => parseDigits true digits
  | '+' :: digits => parseDigits false digits
  | digits => parseDigits false digits

theorem exactly_eq_some {n : Int} {a : SwiftInt} : exactly n = some a ↔ a.val = n := by
  unfold exactly
  split
  · rename_i h
    rw [Option.some.injEq, SwiftInt.ext_iff]
    exact eq_comm
  · rename_i h
    constructor
    · intro heq
      cases heq
    · rintro rfl
      exact absurd ⟨a.lower, a.upper⟩ h

theorem exactly_of_ge {n : Int} (h : 2 ^ 63 ≤ n) : exactly n = none := by
  rw [exactly, dif_neg]
  intro hrange
  omega

end SwiftInt

/-! ### Texts of digits -/

/-- Every character is an ASCII digit. -/
def Digits (text : String) : Prop := ∀ c ∈ text.toList, c.isDigit = true

instance (text : String) : Decidable (Digits text) := List.decidableBAll _ text.toList

/-- The number a text of digits spells. -/
def decimalValue (text : String) : Nat := Nat.ofDigitChars 10 text.toList 0

theorem le_ofDigitChars (digits : List Char) (n : Nat) : n ≤ Nat.ofDigitChars 10 digits n := by
  induction digits generalizing n with
  | nil =>
    rw [Nat.ofDigitChars_nil]
  | cons c digits ih =>
    rw [Nat.ofDigitChars_cons]
    have hrest := ih (10 * n + (c.toNat - '0'.toNat))
    omega

namespace SwiftInt

/-- One digit more gives the next value, or no `Int`. -/
theorem appendDigit_eq {value : SwiftInt} {n : Nat} (hvalue : value.val = n) {c : Char}
    (hc : c.isDigit = true) :
    appendDigit false value c = exactly (10 * n + (c.toNat - '0'.toNat) : Nat) := by
  rw [appendDigit, if_pos hc, hvalue]
  by_cases hfits : (n : Int) * 10 < 2 ^ 63
  · have hscaled : exactly ((n : Int) * 10) = some ⟨n * 10, by omega, hfits⟩ :=
      exactly_eq_some.mpr rfl
    rw [hscaled, Option.bind_eq_bind, Option.bind_some]
    simp only [Bool.false_eq_true, if_false]
    apply congrArg exactly
    push_cast
    omega
  · rw [exactly_of_ge (by omega), exactly_of_ge (by push_cast; omega)]
    rfl

theorem foldlM_appendDigit {value : SwiftInt} {n : Nat} (hvalue : value.val = n)
    {digits : List Char} (h : ∀ c ∈ digits, c.isDigit = true) :
    digits.foldlM (appendDigit false) value = exactly (Nat.ofDigitChars 10 digits n : Nat) := by
  induction digits generalizing value n with
  | nil =>
    rw [Nat.ofDigitChars_nil]
    exact (exactly_eq_some.mpr hvalue).symm
  | cons c digits ih =>
    rw [List.foldlM_cons, appendDigit_eq hvalue (h c (by simp)), Nat.ofDigitChars_cons]
    rcases hnext : exactly (10 * n + (c.toNat - '0'.toNat) : Nat) with _ | next
    · -- the value overflowed, and further digits only make it larger
      have hge : 2 ^ 63 ≤ ((10 * n + (c.toNat - '0'.toNat) : Nat) : Int) := by
        by_contra hlt
        rw [exactly, dif_pos ⟨by omega, by omega⟩] at hnext
        cases hnext
      have hle := le_ofDigitChars digits (10 * n + (c.toNat - '0'.toNat))
      rw [exactly_of_ge (by omega)]
      rfl
    · exact ih (exactly_eq_some.mp hnext) fun c' hc' => h c' (by simp [hc'])

/-- A text of digits parses to the value it spells, unless it is empty or that is
    past `Int.max`. -/
theorem ofText_of_digits {text : String} (h : Digits text) :
    ofText text = if text = "" then none else exactly (decimalValue text) := by
  have hparse : ofText text = parseDigits false text.toList := by
    unfold ofText
    split
    · rename_i digits htext
      have hminus := h '-' (by rw [htext]; simp)
      exact absurd hminus (by decide)
    · rename_i digits htext
      have hplus := h '+' (by rw [htext]; simp)
      exact absurd hplus (by decide)
    · rfl
  rw [hparse, parseDigits]
  by_cases hempty : text = ""
  · rw [if_pos hempty, if_pos (by rw [hempty]; rfl)]
  · rw [if_neg hempty, if_neg (by simpa using hempty)]
    exact foldlM_appendDigit rfl h

end SwiftInt

/-! ### `String(value)` -/

theorem toList_description {a : SwiftInt} (h : 0 ≤ a.val) :
    a.description.toList = Nat.toDigits 10 a.val.toNat := by
  obtain ⟨n, hn⟩ := Int.eq_ofNat_of_zero_le h
  rw [SwiftInt.description, hn]
  exact Nat.toList_repr

theorem digits_description {a : SwiftInt} (h : 0 ≤ a.val) : Digits a.description := by
  intro c hc
  rw [toList_description h] at hc
  exact Nat.isDigit_of_mem_toDigits (by norm_num) (by norm_num) hc

theorem decimalValue_description {a : SwiftInt} (h : 0 ≤ a.val) :
    decimalValue a.description = a.val.toNat := by
  rw [decimalValue, toList_description h, Nat.ofDigitChars_ten_toDigits]

/-- A counter is read back from its own text. -/
theorem SwiftInt.ofText_description {a : SwiftInt} (h : 0 ≤ a.val) :
    ofText a.description = some a := by
  have hne : a.description ≠ "" := by
    intro hempty
    have hlist := toList_description h
    rw [hempty] at hlist
    exact Nat.toDigits_ne_nil hlist.symm
  rw [ofText_of_digits (digits_description h), if_neg hne, decimalValue_description h,
    exactly_eq_some]
  omega

end W3Stats

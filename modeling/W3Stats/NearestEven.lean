import Mathlib.Algebra.Order.Field.Power
import Mathlib.Algebra.Order.Floor.Ring
import Mathlib.Data.Int.Log
import Mathlib.Tactic.FieldSimp
import Mathlib.Tactic.Linarith
import Mathlib.Tactic.Positivity
import Mathlib.Tactic.Ring

/-!
# Rounding to the nearest significand, ties to even

Binary rounding with `p` fraction bits and an unbounded exponent, over any
ordered field with a floor.  The working rule is `le_rnd_iff`: a rounded value
reaches a bound exactly when the value itself reaches the cut below the bound, so
a comparison on the result of a rounding turns into one on its argument.
-/

namespace NearestEven

variable {α : Type*} [Field α] [LinearOrder α]

/-! ### Midpoints -/

/-- `x` is at or above the midpoint below `n`; at the midpoint only if `n` wins the
    tie. -/
def AtLeastMidpoint (n : ℤ) (x : α) : Prop :=
  if Even n then (n : α) - 1 / 2 ≤ x else (n : α) - 1 / 2 < x

instance (n : ℤ) (x : α) : Decidable (AtLeastMidpoint n x) := by
  unfold AtLeastMidpoint
  infer_instance

theorem AtLeastMidpoint.half_le {n : ℤ} {x : α} (h : AtLeastMidpoint n x) :
    (n : α) - 1 / 2 ≤ x := by
  unfold AtLeastMidpoint at h
  split at h
  · exact h
  · exact h.le

theorem AtLeastMidpoint.mono {n : ℤ} {x y : α} (h : AtLeastMidpoint n x) (hxy : x ≤ y) :
    AtLeastMidpoint n y := by
  unfold AtLeastMidpoint at h ⊢
  split at h
  · rename_i heven
    rw [if_pos heven]
    exact h.trans hxy
  · rename_i hodd
    rw [if_neg hodd]
    exact h.trans_le hxy

variable [IsStrictOrderedRing α]

theorem atLeastMidpoint_of_le {n : ℤ} {x : α} (h : (n : α) ≤ x) : AtLeastMidpoint n x := by
  unfold AtLeastMidpoint
  split <;> linarith

variable [FloorRing α]

/-! ### Rounding to an integer -/

/-- The nearest integer; a tie goes to the even one. -/
def roundEven (x : α) : ℤ :=
  if Int.fract x < 1 / 2 then ⌊x⌋
  else if 1 / 2 < Int.fract x then ⌊x⌋ + 1
  else if Even ⌊x⌋ then ⌊x⌋ else ⌊x⌋ + 1

/-- Only the integer above the floor is decided by its midpoint. -/
theorem roundEven_eq (x : α) :
    roundEven x = if AtLeastMidpoint (⌊x⌋ + 1) x then ⌊x⌋ + 1 else ⌊x⌋ := by
  have hsplit : ⌊x⌋ + Int.fract x = x := Int.floor_add_fract x
  have hhalf : ((⌊x⌋ + 1 : ℤ) : α) - 1 / 2 = ⌊x⌋ + 1 / 2 := by
    push_cast
    ring
  have hmid : AtLeastMidpoint (⌊x⌋ + 1) x ↔
      if Even ⌊x⌋ then 1 / 2 < Int.fract x else 1 / 2 ≤ Int.fract x := by
    unfold AtLeastMidpoint
    rw [hhalf]
    by_cases heven : Even ⌊x⌋
    · rw [if_neg (by rwa [Int.even_add_one, not_not]), if_pos heven]
      constructor <;> intro h <;> linarith
    · rw [if_pos (by rwa [Int.even_add_one]), if_neg heven]
      constructor <;> intro h <;> linarith
  unfold roundEven
  simp only [hmid]
  rcases lt_trichotomy (Int.fract x) (1 / 2) with hlt | heq | hgt
  · rw [if_pos hlt, if_neg (by split <;> linarith)]
  · rw [heq, if_neg (lt_irrefl _), if_neg (lt_irrefl _)]
    split <;> simp
  · rw [if_neg (by linarith), if_pos hgt, if_pos (by split <;> linarith)]

/-- A rounded value reaches an integer exactly from the midpoint below it. -/
theorem le_roundEven_iff {n : ℤ} {x : α} : n ≤ roundEven x ↔ AtLeastMidpoint n x := by
  rw [roundEven_eq]
  rcases lt_trichotomy n (⌊x⌋ + 1) with hlt | rfl | hgt
  · have hle : n ≤ ⌊x⌋ := by omega
    have hx : (n : α) ≤ x := (Int.cast_le.mpr hle).trans (Int.floor_le x)
    refine ⟨fun _ => atLeastMidpoint_of_le hx, ?_⟩
    intro _
    split <;> omega
  · split
    · rename_i hmid
      exact ⟨fun _ => hmid, fun _ => le_rfl⟩
    · rename_i hmid
      exact ⟨fun h => by omega, fun h => absurd h hmid⟩
  · constructor
    · intro h
      split at h <;> omega
    · intro h
      have hn : ((⌊x⌋ + 2 : ℤ) : α) ≤ n := Int.cast_le.mpr (by omega)
      have hx := Int.lt_floor_add_one x
      have hhalf := h.half_le
      push_cast at hn
      linarith

theorem roundEven_intCast (n : ℤ) : roundEven (n : α) = n := by
  simp [roundEven]

theorem roundEven_mono {x y : α} (h : x ≤ y) : roundEven x ≤ roundEven y :=
  le_roundEven_iff.mpr ((le_roundEven_iff.mp le_rfl).mono h)

/-! ### Rounding to `p` fraction bits -/

/-- The exponent of the last place of `x`. -/
def exponent (p : ℕ) (x : α) : ℤ := Int.log 2 |x| - p

/-- The nearest value with `p` fraction bits; a tie goes to the even significand. -/
def rnd (p : ℕ) (x : α) : α := roundEven (x / 2 ^ exponent p x) * 2 ^ exponent p x

variable {p : ℕ}

@[simp] theorem rnd_zero : rnd p (0 : α) = 0 := by
  simp [rnd, roundEven]

theorem rnd_of_exponent {x : α} {n : ℤ} (h : x / 2 ^ exponent p x = n) : rnd p x = x := by
  have hpos : (0 : α) < 2 ^ exponent p x := by positivity
  rw [rnd, h, roundEven_intCast, ← h, div_mul_cancel₀ _ hpos.ne']

section Positive

variable {x : α} (hx : 0 < x)

include hx

theorem exponent_of_pos : exponent p x = Int.log 2 x - p := by
  rw [exponent, abs_of_pos hx]

/-- The significand has `p` fraction bits. -/
theorem le_div_exponent : ((2 ^ p : ℤ) : α) ≤ x / 2 ^ exponent p x := by
  have hpow : (0 : α) < 2 ^ exponent p x := by positivity
  rw [le_div_iff₀ hpow]
  calc ((2 ^ p : ℤ) : α) * 2 ^ exponent p x
      = 2 ^ Int.log 2 x := by
        rw [exponent_of_pos hx, zpow_sub₀ two_ne_zero, zpow_natCast]
        push_cast
        field_simp
    _ ≤ x := by
        simpa using Int.zpow_log_le_self (b := 2) one_lt_two hx

theorem div_exponent_lt : x / 2 ^ exponent p x < ((2 ^ (p + 1) : ℤ) : α) := by
  have hpow : (0 : α) < 2 ^ exponent p x := by positivity
  rw [div_lt_iff₀ hpow]
  calc x < 2 ^ (Int.log 2 x + 1) := by
        simpa using Int.lt_zpow_succ_log_self (b := 2) one_lt_two x
    _ = ((2 ^ (p + 1) : ℤ) : α) * 2 ^ exponent p x := by
        rw [exponent_of_pos hx, zpow_sub₀ two_ne_zero, zpow_natCast, zpow_add_one₀ two_ne_zero]
        push_cast
        field_simp
        ring

theorem le_roundEven_significand : 2 ^ p ≤ roundEven (x / 2 ^ exponent p x) :=
  le_roundEven_iff.mpr (atLeastMidpoint_of_le (le_div_exponent hx))

theorem roundEven_significand_le : roundEven (x / 2 ^ exponent p x) ≤ 2 ^ (p + 1) := by
  rw [← roundEven_intCast (α := α) (2 ^ (p + 1))]
  exact roundEven_mono (div_exponent_lt hx).le

end Positive

/-! ### The cut below a bound -/

/-- The exponent of the last place of the values just below `c`. -/
def cutExponent (p : ℕ) (c : α) : ℤ := Int.clog 2 c - (p + 1)

/-- `x` is at or above the cut of `c`: the midpoint below the least value with `p`
    fraction bits that is at least `c`. -/
def Reaches (p : ℕ) (c x : α) : Prop :=
  AtLeastMidpoint ⌈c / 2 ^ cutExponent p c⌉ (x / 2 ^ cutExponent p c)

instance (p : ℕ) (c x : α) : Decidable (Reaches p c x) := by
  unfold Reaches
  infer_instance

theorem Reaches.mono {c x y : α} (h : Reaches p c x) (hxy : x ≤ y) : Reaches p c y :=
  AtLeastMidpoint.mono h (div_le_div_of_nonneg_right hxy (by positivity))

theorem lt_div_cutExponent {c : α} (hc : 0 < c) :
    ((2 ^ p : ℤ) : α) < c / 2 ^ cutExponent p c := by
  have hpow : (0 : α) < 2 ^ cutExponent p c := by positivity
  rw [lt_div_iff₀ hpow]
  calc ((2 ^ p : ℤ) : α) * 2 ^ cutExponent p c
      = 2 ^ (Int.clog 2 c - 1) := by
        rw [cutExponent, ← sub_sub, sub_right_comm, zpow_sub₀ two_ne_zero, zpow_natCast]
        push_cast
        field_simp
    _ < c := by
        simpa using Int.zpow_pred_clog_lt_self (b := 2) one_lt_two hc

theorem div_cutExponent_le {c : α} : c / 2 ^ cutExponent p c ≤ ((2 ^ (p + 1) : ℤ) : α) := by
  have hpow : (0 : α) < 2 ^ cutExponent p c := by positivity
  rw [div_le_iff₀ hpow]
  calc c ≤ 2 ^ Int.clog 2 c := by
        simpa using Int.self_le_zpow_clog (b := 2) one_lt_two c
    _ = ((2 ^ (p + 1) : ℤ) : α) * 2 ^ cutExponent p c := by
        have hcast : (p : ℤ) + 1 = ((p + 1 : ℕ) : ℤ) := rfl
        rw [cutExponent, hcast, zpow_sub₀ two_ne_zero, zpow_natCast]
        push_cast
        field_simp

theorem two_zpow_le_of_lt {j k : ℤ} (h : j < k) : (2 : α) * 2 ^ j ≤ 2 ^ k := by
  rw [mul_comm, ← zpow_add_one₀ two_ne_zero]
  exact zpow_le_zpow_right₀ one_le_two h

/-- An argument in a lower binade than the bound stays below it. -/
theorem rnd_lt_of_exponent_lt {c x : α} (hc : 0 < c) (hx : 0 < x)
    (h : exponent p x < cutExponent p c) :
    rnd p x < c ∧ x / 2 ^ cutExponent p c < (2 ^ p : ℤ) := by
  have hT : (0 : α) < 2 ^ exponent p x := by positivity
  have hU : (0 : α) < 2 ^ cutExponent p c := by positivity
  have hscale : ((2 ^ (p + 1) : ℤ) : α) * 2 ^ exponent p x ≤
      ((2 ^ p : ℤ) : α) * 2 ^ cutExponent p c := by
    calc ((2 ^ (p + 1) : ℤ) : α) * 2 ^ exponent p x
        = ((2 ^ p : ℤ) : α) * (2 * 2 ^ exponent p x) := by
          push_cast
          ring
      _ ≤ ((2 ^ p : ℤ) : α) * 2 ^ cutExponent p c :=
          mul_le_mul_of_nonneg_left (two_zpow_le_of_lt h) (by positivity)
  constructor
  · calc rnd p x ≤ ((2 ^ (p + 1) : ℤ) : α) * 2 ^ exponent p x :=
          mul_le_mul_of_nonneg_right (Int.cast_le.mpr (roundEven_significand_le hx)) hT.le
      _ ≤ ((2 ^ p : ℤ) : α) * 2 ^ cutExponent p c := hscale
      _ < c := (lt_div_iff₀ hU).mp (lt_div_cutExponent hc)
  · rw [div_lt_iff₀ hU]
    exact ((div_lt_iff₀ hT).mp (div_exponent_lt hx)).trans_le hscale

/-- An argument in a higher binade than the bound stays at or above it. -/
theorem le_rnd_of_lt_exponent {c x : α} (hx : 0 < x)
    (h : cutExponent p c < exponent p x) :
    c ≤ rnd p x ∧ ((2 ^ (p + 1) : ℤ) : α) ≤ x / 2 ^ cutExponent p c := by
  have hT : (0 : α) < 2 ^ exponent p x := by positivity
  have hU : (0 : α) < 2 ^ cutExponent p c := by positivity
  have hscale : ((2 ^ (p + 1) : ℤ) : α) * 2 ^ cutExponent p c ≤
      ((2 ^ p : ℤ) : α) * 2 ^ exponent p x := by
    calc ((2 ^ (p + 1) : ℤ) : α) * 2 ^ cutExponent p c
        = ((2 ^ p : ℤ) : α) * (2 * 2 ^ cutExponent p c) := by
          push_cast
          ring
      _ ≤ ((2 ^ p : ℤ) : α) * 2 ^ exponent p x :=
          mul_le_mul_of_nonneg_left (two_zpow_le_of_lt h) (by positivity)
  constructor
  · calc c ≤ ((2 ^ (p + 1) : ℤ) : α) * 2 ^ cutExponent p c :=
          (div_le_iff₀ hU).mp div_cutExponent_le
      _ ≤ ((2 ^ p : ℤ) : α) * 2 ^ exponent p x := hscale
      _ ≤ rnd p x :=
          mul_le_mul_of_nonneg_right (Int.cast_le.mpr (le_roundEven_significand hx)) hT.le
  · rw [le_div_iff₀ hU]
    exact hscale.trans ((le_div_iff₀ hT).mp (le_div_exponent hx))

/-- **A rounded value reaches a bound exactly from the cut below the bound.** -/
theorem le_rnd_iff {c x : α} (hc : 0 < c) (hx : 0 ≤ x) : c ≤ rnd p x ↔ Reaches p c x := by
  have hlow : (2 : ℤ) ^ p + 1 ≤ ⌈c / 2 ^ cutExponent p c⌉ :=
    Int.lt_ceil.mpr (lt_div_cutExponent hc)
  have hlow' : ((2 ^ p : ℤ) : α) + 1 ≤ ⌈c / 2 ^ cutExponent p c⌉ := by
    exact_mod_cast hlow
  have hhigh : ⌈c / 2 ^ cutExponent p c⌉ ≤ (2 : ℤ) ^ (p + 1) := Int.ceil_le.mpr div_cutExponent_le
  rcases hx.eq_or_lt with rfl | hpos
  · -- zero rounds to itself, and every cut is positive
    rw [rnd_zero]
    refine ⟨fun h => absurd h hc.not_ge, ?_⟩
    intro h
    have hhalf := AtLeastMidpoint.half_le h
    have hpow : (0 : α) ≤ ((2 ^ p : ℤ) : α) := by positivity
    rw [zero_div] at hhalf
    linarith
  · rcases lt_trichotomy (exponent p x) (cutExponent p c) with hlt | heq | hgt
    · obtain ⟨hrnd, hdiv⟩ := rnd_lt_of_exponent_lt hc hpos hlt
      refine ⟨fun h => absurd h hrnd.not_ge, ?_⟩
      intro h
      have hhalf := AtLeastMidpoint.half_le h
      linarith
    · have hU : (0 : α) < 2 ^ cutExponent p c := by positivity
      rw [rnd, heq, Reaches, ← div_le_iff₀ hU, ← Int.ceil_le, le_roundEven_iff]
    · obtain ⟨hrnd, hdiv⟩ := le_rnd_of_lt_exponent hpos hgt
      exact ⟨fun _ => atLeastMidpoint_of_le ((Int.cast_le.mpr hhigh).trans hdiv), fun _ => hrnd⟩

theorem rnd_nonneg {x : α} (hx : 0 ≤ x) : 0 ≤ rnd p x := by
  rcases hx.eq_or_lt with rfl | hpos
  · rw [rnd_zero]
  · have hsig := le_roundEven_significand (p := p) hpos
    have hround : (0 : ℤ) ≤ roundEven (x / 2 ^ exponent p x) := le_trans (by positivity) hsig
    exact mul_nonneg (Int.cast_nonneg hround) (by positivity)

theorem rnd_pos {x : α} (hx : 0 < x) : 0 < rnd p x := by
  have hsig := le_roundEven_significand (p := p) hx
  have hround : (0 : ℤ) < roundEven (x / 2 ^ exponent p x) := lt_of_lt_of_le (by positivity) hsig
  exact mul_pos (Int.cast_pos.mpr hround) (by positivity)

theorem rnd_mono {x y : α} (hx : 0 ≤ x) (hxy : x ≤ y) : rnd p x ≤ rnd p y := by
  rcases (rnd_nonneg (p := p) hx).eq_or_lt with hzero | hpos
  · rw [← hzero]
    exact rnd_nonneg (hx.trans hxy)
  · rw [le_rnd_iff hpos (hx.trans hxy)]
    exact ((le_rnd_iff hpos hx).mp le_rfl).mono hxy

/-- Natural numbers of at most `p + 1` bits, and the next one, are not rounded. -/
theorem rnd_natCast {n : ℕ} (h : n ≤ 2 ^ (p + 1)) : rnd p (n : α) = n := by
  rcases Nat.eq_zero_or_pos n with rfl | hpos
  · rw [Nat.cast_zero, rnd_zero]
  · have hcast : (0 : α) < n := Nat.cast_pos.mpr hpos
    have hexp : exponent p (n : α) = (Nat.log 2 n : ℤ) - p := by
      rw [exponent_of_pos hcast, Int.log_natCast]
    have hlog : Nat.log 2 n ≤ p + 1 := by
      calc Nat.log 2 n ≤ Nat.log 2 (2 ^ (p + 1)) := Nat.log_mono_right h
        _ = p + 1 := Nat.log_pow one_lt_two _
    rcases hlog.lt_or_eq with hlt | heq
    · obtain ⟨k, hk⟩ := Nat.exists_eq_add_of_le (Nat.le_of_lt_succ hlt)
      apply rnd_of_exponent (n := (n * 2 ^ k : ℕ))
      have hexp' : exponent p (n : α) = -(k : ℤ) := by
        rw [hexp]
        omega
      rw [hexp', zpow_neg, zpow_natCast, div_inv_eq_mul]
      push_cast
      rfl
    · -- only the power of two itself has that many bits
      have hn : n = 2 ^ (p + 1) := by
        refine le_antisymm h ?_
        rw [← heq]
        exact Nat.pow_log_le_self 2 hpos.ne'
      apply rnd_of_exponent (n := (2 ^ p : ℕ))
      have hexp' : exponent p (n : α) = 1 := by
        rw [hexp]
        omega
      rw [hexp', zpow_one, hn]
      push_cast
      rw [pow_succ]
      field_simp

end NearestEven

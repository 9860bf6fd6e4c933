import Mathlib.Data.Rat.Floor
import W3Stats.NearestEven
import W3Stats.Records

/-!
# StatsUtil

`calculateStat` and the `Double` arithmetic in it.  A `Double` is the rational it
stands for; every operation rounds to a 53-bit significand, and none of those
here comes near the ends of the exponent range.  The percentage is exact only as
far as the roundings allow, and `percentage_eq_floor_iff` says how far that is.
-/

namespace W3Stats

open NearestEven

/-! ### `Double` -/

/-- The nearest `Double`. -/
def double (x : ℚ) : ℚ := rnd 52 x

/-- `Int(x)`, which truncates and traps when the result is not a 64-bit value. -/
def SwiftInt.ofDouble (x : ℚ) : Except Trap SwiftInt :=
  let n := if 0 ≤ x then ⌊x⌋ else ⌈x⌉
  if h : -2 ^ 63 ≤ n ∧ n < 2 ^ 63 then .ok ⟨n, h.1, h.2⟩ else .error .doubleOutOfRange

/-- `Double(a)`. -/
def SwiftInt.toDouble (a : SwiftInt) : ℚ := double a.val

/-! ### `calculateStat` -/

structure Stat where
  wins : SwiftInt
  losses : SwiftInt
  total : SwiftInt
  percentage : SwiftInt
deriving DecidableEq, Repr

def calculateStat (wins losses : SwiftInt) : Except Trap Stat := do
  let total ← wins.add losses
  let percentage :=
    if total.val ≠ 0 then double (double (wins.toDouble / total.toDouble) * 100) else 100
  let percentage ← SwiftInt.ofDouble percentage
  return ⟨wins, losses, total, percentage⟩

/-- The quotient of two counters, as a `Double` percentage. -/
def percentageOf (wins total : SwiftInt) : ℚ :=
  double (double (wins.toDouble / total.toDouble) * 100)

/-- The counters of a `Stat`, and their sum. -/
structure Stat.Sums (stat : Stat) (w l : SwiftInt) : Prop where
  wins : stat.wins = w
  losses : stat.losses = l
  total : stat.total.val = w.val + l.val

theorem calculateStat_sums {wins losses : SwiftInt} {stat : Stat}
    (h : calculateStat wins losses = .ok stat) : stat.Sums wins losses := by
  obtain ⟨total, htotal, h⟩ := bind_eq_ok.mp h
  obtain ⟨percentage, -, h⟩ := bind_eq_ok.mp h
  cases h
  exact ⟨rfl, rfl, SwiftInt.add_eq_ok.mp htotal⟩

/-! ### Counters that are not negative -/

theorem double_nonneg {x : ℚ} (hx : 0 ≤ x) : 0 ≤ double x := rnd_nonneg hx

theorem double_mono {x y : ℚ} (hx : 0 ≤ x) (hxy : x ≤ y) : double x ≤ double y := rnd_mono hx hxy

theorem double_natCast {n : ℕ} (h : n ≤ 2 ^ 53) : double n = n := rnd_natCast h

/-- The percentage of a part of a positive total lies between 0 and 100. -/
theorem percentageOf_mem {wins total : SwiftInt} (hwins : 0 ≤ wins.val)
    (hle : wins.val ≤ total.val) (hpos : 0 < total.val) :
    0 ≤ percentageOf wins total ∧ percentageOf wins total ≤ 100 := by
  have hone : double (1 : ℚ) = 1 := by exact_mod_cast double_natCast (n := 1) (by norm_num)
  have hhundred : double (100 : ℚ) = 100 := by
    exact_mod_cast double_natCast (n := 100) (by norm_num)
  have hwins' : (0 : ℚ) ≤ wins.val := Int.cast_nonneg hwins
  have htotal : (0 : ℚ) < total.toDouble := rnd_pos (Int.cast_pos.mpr hpos)
  have hnum : 0 ≤ wins.toDouble := double_nonneg hwins'
  have hquot : 0 ≤ wins.toDouble / total.toDouble := div_nonneg hnum htotal.le
  have hquot' : wins.toDouble / total.toDouble ≤ 1 := by
    rw [div_le_one htotal]
    exact double_mono hwins' (Int.cast_le.mpr hle)
  have hratio : double (wins.toDouble / total.toDouble) ≤ 1 := by
    rw [← hone]
    exact double_mono hquot hquot'
  have hratio' := double_nonneg hquot
  constructor
  · exact double_nonneg (by linarith)
  · calc percentageOf wins total ≤ double 100 := double_mono (by linarith) (by linarith)
      _ = 100 := hhundred

theorem ofDouble_of_mem {x : ℚ} (h : 0 ≤ x) (h' : x ≤ 100) :
    ∃ a, SwiftInt.ofDouble x = .ok a ∧ a.val = ⌊x⌋ ∧ 0 ≤ a.val ∧ a.val ≤ 100 := by
  have hlow : 0 ≤ ⌊x⌋ := Int.floor_nonneg.mpr h
  have hhigh : ⌊x⌋ ≤ 100 := by
    have := Int.floor_le_floor h'
    simpa using this
  have hrange : -2 ^ 63 ≤ ⌊x⌋ ∧ ⌊x⌋ < 2 ^ 63 := ⟨by omega, by omega⟩
  refine ⟨⟨⌊x⌋, hrange.1, hrange.2⟩, ?_, rfl, hlow, hhigh⟩
  simp only [SwiftInt.ofDouble, if_pos h]
  rw [dif_pos hrange]

/-- What `calculateStat` returns for counters that are not negative. -/
structure Stat.Describes (stat : Stat) (w l : SwiftInt) : Prop extends stat.Sums w l where
  percentage : stat.percentage.val = ⌊if stat.total.val ≠ 0 then percentageOf w stat.total else 100⌋
  percentage_mem : 0 ≤ stat.percentage.val ∧ stat.percentage.val ≤ 100

/-- On counters that are not negative, `calculateStat` can only trap on their sum. -/
theorem calculateStat_checked {wins losses : SwiftInt} (hwins : 0 ≤ wins.val)
    (hlosses : 0 ≤ losses.val) :
    Checked (wins.val + losses.val) (fun stat => stat.Describes wins losses)
      (calculateStat wins losses) := by
  refine (SwiftInt.add_checked hwins hlosses).bind le_rfl fun total hval => ?_
  have hrange : 0 ≤ (if total.val ≠ 0 then percentageOf wins total else 100) ∧
      (if total.val ≠ 0 then percentageOf wins total else 100) ≤ 100 := by
    by_cases hzero : total.val ≠ 0
    · rw [if_pos hzero]
      exact percentageOf_mem hwins (by omega) (by omega)
    · rw [if_neg hzero]
      norm_num
  obtain ⟨percentage, hcast, hfloor, hmem⟩ := ofDouble_of_mem hrange.1 hrange.2
  refine Or.inl ⟨⟨wins, losses, total, percentage⟩, ?_, ⟨rfl, rfl, hval⟩, hfloor, hmem⟩
  simp only [percentageOf] at hcast
  simp only [hcast, bind, Except.bind, pure, Except.pure]

/-! ### When the percentage is exact -/

/-- A `Double` whose product with 100 rounds to `m` or more is at least this. -/
def leastRatio (m : ℕ) : ℚ := (m - 2 ^ (Int.clog 2 (m : ℚ) - 54)) / 100

/-- The ratio rounds to a `Double` whose product with 100 rounds to `m` or more. -/
def ReachesPercent (m : ℕ) (q : ℚ) : Prop := Reaches 52 (leastRatio m) q

instance (m : ℕ) (q : ℚ) : Decidable (ReachesPercent m q) := by
  unfold ReachesPercent
  infer_instance

/-- No whole percentage lies between the ratio and its cut. -/
def NoCutBetween (q : ℚ) : Prop :=
  ∀ m : ℕ, 1 ≤ m → m ≤ 100 → (ReachesPercent m q ↔ m ≤ 100 * q)

theorem clog_le {m : ℕ} (hm : m ≤ 100) : Int.clog 2 (m : ℚ) ≤ 7 := by
  rw [Int.clog_natCast]
  have h := Nat.clog_mono_right 2 hm
  have h100 : Nat.clog 2 100 = 7 := by decide
  omega

/-- A whole number is reached from half a place below it. -/
theorem reaches_natCast_iff {m : ℕ} (hm : m ≤ 100) {x : ℚ} :
    Reaches 52 (m : ℚ) x ↔ (m : ℚ) - 2 ^ (Int.clog 2 (m : ℚ) - 54) ≤ x := by
  have hclog := clog_le hm
  obtain ⟨k, hk⟩ : ∃ k : ℕ, cutExponent 52 (m : ℚ) = -((k + 1 : ℕ) : ℤ) :=
    ⟨(52 - Int.clog 2 (m : ℚ)).toNat, by rw [cutExponent]; push_cast; omega⟩
  have hexp : Int.clog 2 (m : ℚ) - 54 = -((k + 1 : ℕ) : ℤ) - 1 := by
    rw [← hk, cutExponent]
    omega
  have hdiv : (m : ℚ) / 2 ^ cutExponent 52 (m : ℚ) = ((m * 2 ^ (k + 1) : ℤ) : ℚ) := by
    rw [hk, zpow_neg, zpow_natCast, div_inv_eq_mul]
    push_cast
    rfl
  have heven : Even ((m : ℤ) * 2 ^ (k + 1)) := by
    rw [pow_succ]
    exact ((even_two).mul_left _).mul_left _
  have hpow : (0 : ℚ) < 2 ^ (k + 1) := by positivity
  rw [Reaches, hdiv, Int.ceil_intCast, AtLeastMidpoint, if_pos heven, hk, hexp, zpow_sub_one₀
    two_ne_zero, zpow_neg, zpow_natCast, div_inv_eq_mul]
  push_cast
  constructor
  · intro h
    have hscaled := mul_le_mul_of_nonneg_right h (inv_nonneg.mpr hpow.le)
    field_simp at hscaled ⊢
    linarith
  · intro h
    have hscaled := mul_le_mul_of_nonneg_right h hpow.le
    field_simp at hscaled ⊢
    linarith

theorem leastRatio_pos {m : ℕ} (hpos : 1 ≤ m) (hm : m ≤ 100) : 0 < leastRatio m := by
  have hclog := clog_le hm
  have hcast : (1 : ℚ) ≤ m := by exact_mod_cast hpos
  have hsmall : (2 : ℚ) ^ (Int.clog 2 (m : ℚ) - 54) ≤ 2 ^ (-1 : ℤ) :=
    zpow_le_zpow_right₀ one_le_two (by omega)
  rw [zpow_neg_one] at hsmall
  rw [leastRatio]
  linarith

/-- The percentage reaches `m` exactly when the ratio does. -/
theorem le_percentage_iff {m : ℕ} (hpos : 1 ≤ m) (hm : m ≤ 100) {q : ℚ} (hq : 0 ≤ q) :
    (m : ℚ) ≤ double (double q * 100) ↔ ReachesPercent m q := by
  have hcast : (0 : ℚ) < m := by exact_mod_cast hpos
  have hnonneg : 0 ≤ double q * 100 := mul_nonneg (double_nonneg hq) (by norm_num)
  rw [double, le_rnd_iff hcast hnonneg, reaches_natCast_iff hm, ReachesPercent,
    ← le_rnd_iff (leastRatio_pos hpos hm) hq, leastRatio, div_le_iff₀ (by norm_num)]
  rfl

/-- Two whole percentages are equal when they reach the same ones. -/
theorem eq_iff_reach_same {a b : ℤ} (ha : 0 ≤ a) (ha' : a ≤ 100) (hb : 0 ≤ b) (hb' : b ≤ 100) :
    a = b ↔ ∀ m : ℕ, 1 ≤ m → m ≤ 100 → ((m : ℤ) ≤ a ↔ (m : ℤ) ≤ b) := by
  constructor
  · rintro rfl m - -
    exact Iff.rfl
  · intro h
    by_contra hne
    rcases Int.lt_or_gt_of_ne hne with hlt | hgt
    · have hm := h b.toNat (by omega) (by omega)
      omega
    · have hm := h a.toNat (by omega) (by omega)
      omega

theorem toDouble_of_le {a : SwiftInt} (h : 0 ≤ a.val) (h' : a.val ≤ 2 ^ 53) :
    a.toDouble = a.val := by
  obtain ⟨n, hn⟩ := Int.eq_ofNat_of_zero_le h
  rw [SwiftInt.toDouble, hn]
  exact double_natCast (by omega)

/-- A total that a `Double` holds exactly leaves the two roundings of the percentage. -/
theorem Stat.Describes.percentage_eq {stat : Stat} {wins losses : SwiftInt}
    (h : stat.Describes wins losses) (hwins : 0 ≤ wins.val) (hlosses : 0 ≤ losses.val)
    (hpos : 0 < wins.val + losses.val) (hle : wins.val + losses.val ≤ 2 ^ 53) :
    stat.percentage.val =
      ⌊double (double ((wins.val : ℚ) / (wins.val + losses.val : ℤ)) * 100)⌋ := by
  have htotal := h.total
  have hfloor := h.percentage
  rw [if_pos (by omega), percentageOf, toDouble_of_le hwins (by omega),
    toDouble_of_le (by omega) (by omega), htotal] at hfloor
  exact hfloor

/-- The percentage reaches `m` exactly when the ratio does. -/
theorem Stat.Describes.le_percentage_iff {stat : Stat} {wins losses : SwiftInt}
    (h : stat.Describes wins losses) (hwins : 0 ≤ wins.val) (hlosses : 0 ≤ losses.val)
    (hpos : 0 < wins.val + losses.val) (hle : wins.val + losses.val ≤ 2 ^ 53) {m : ℕ}
    (hm : 1 ≤ m) (hm' : m ≤ 100) :
    (m : ℤ) ≤ stat.percentage.val ↔
      ReachesPercent m ((wins.val : ℚ) / (wins.val + losses.val : ℤ)) := by
  have hq : (0 : ℚ) ≤ (wins.val : ℚ) / (wins.val + losses.val : ℤ) :=
    div_nonneg (Int.cast_nonneg hwins) (Int.cast_nonneg hpos.le)
  rw [h.percentage_eq hwins hlosses hpos hle, Int.le_floor, ← W3Stats.le_percentage_iff hm hm' hq]
  rfl

theorem percentage_iff_noCutBetween {wins losses : SwiftInt} (hwins : 0 ≤ wins.val)
    (hlosses : 0 ≤ losses.val) (hpos : 0 < wins.val + losses.val)
    (hle : wins.val + losses.val ≤ 2 ^ 53) :
    (∃ stat, calculateStat wins losses = .ok stat ∧
        stat.percentage.val = 100 * wins.val / (wins.val + losses.val)) ↔
      NoCutBetween ((wins.val : ℚ) / (wins.val + losses.val : ℤ)) := by
  rcases calculateStat_checked hwins hlosses with ⟨stat, hstat, hdesc⟩ | ⟨-, hover⟩
  · have hreach := fun m => hdesc.le_percentage_iff hwins hlosses hpos hle (m := m)
    have hcast : (0 : ℚ) < (wins.val + losses.val : ℤ) := Int.cast_pos.mpr hpos
    have htrue : ∀ m : ℕ, ((m : ℤ) ≤ 100 * wins.val / (wins.val + losses.val) ↔
        (m : ℚ) ≤ 100 * ((wins.val : ℚ) / (wins.val + losses.val : ℤ))) := by
      intro m
      rw [Int.le_ediv_iff_mul_le hpos, ← mul_div_assoc, le_div_iff₀ hcast]
      exact_mod_cast Iff.rfl
    have hbounds : 0 ≤ 100 * wins.val / (wins.val + losses.val) ∧
        100 * wins.val / (wins.val + losses.val) ≤ 100 := by
      refine ⟨Int.ediv_nonneg (by omega) hpos.le, ?_⟩
      have hlt : 100 * wins.val / (wins.val + losses.val) < 101 := by
        rw [Int.ediv_lt_iff_lt_mul hpos]
        omega
      omega
    have hsame : stat.percentage.val = 100 * wins.val / (wins.val + losses.val) ↔
        NoCutBetween ((wins.val : ℚ) / (wins.val + losses.val : ℤ)) := by
      rw [eq_iff_reach_same hdesc.percentage_mem.1 hdesc.percentage_mem.2 hbounds.1 hbounds.2]
      constructor
      · intro h m hm hm'
        rw [← hreach m hm hm', h m hm hm', htrue]
      · intro h m hm hm'
        rw [hreach m hm hm', h m hm hm', htrue]
    rw [← hsame]
    constructor
    · rintro ⟨stat', hok, hpercentage⟩
      rw [hstat] at hok
      cases hok
      exact hpercentage
    · intro h
      exact ⟨stat, hstat, h⟩
  · omega

/-! ### Totals of ordinary size -/

/-- For each whole percentage, the ratio itself reaches its cut except at 29, 57 and
    58, and the ratios closest to it from totals up to `2 ^ 46` lie on the right
    side of the cut. -/
theorem reachesPercent_near : ∀ m ∈ List.range' 1 100,
    ReachesPercent m (m / 100 + 1 / (100 * 2 ^ 46)) ∧
      ¬ ReachesPercent m (m / 100 - 1 / (100 * 2 ^ 46)) ∧
      (ReachesPercent m (m / 100) ↔ m ≠ 29 ∧ m ≠ 57 ∧ m ≠ 58) := by
  decide +kernel

/-- Up to a total of `2 ^ 46`, only three ratios have a cut on their other side. -/
theorem noCutBetween_iff_of_le {wins total : ℤ} (hpos : 0 < total) (hle : total ≤ 2 ^ 46) :
    NoCutBetween ((wins : ℚ) / total) ↔
      100 * wins ≠ 29 * total ∧ 100 * wins ≠ 57 * total ∧ 100 * wins ≠ 58 * total := by
  have hcast : (0 : ℚ) < total := Int.cast_pos.mpr hpos
  have hstep : 1 / (100 * 2 ^ 46) ≤ 1 / (100 * (total : ℚ)) := by
    have hbound : (total : ℚ) ≤ 2 ^ 46 := by exact_mod_cast hle
    exact one_div_le_one_div_of_le (by linarith) (by linarith)
  have hratio : ∀ m : ℕ, 100 * wins = m * total → (wins : ℚ) / total = m / 100 := by
    intro m h
    have h' : (100 : ℚ) * wins = m * total := by exact_mod_cast h
    field_simp
    linarith
  constructor
  · intro h
    have hthree : ∀ m : ℕ, 1 ≤ m → m ≤ 100 → ¬ (m ≠ 29 ∧ m ≠ 57 ∧ m ≠ 58) →
        100 * wins ≠ m * total := by
      intro m hm hm' hmem heq
      have hnot : ¬ ReachesPercent m (m / 100) := by
        intro hreach
        exact hmem ((reachesPercent_near m (by simp; omega)).2.2.mp hreach)
      have hiff := h m hm hm'
      rw [hratio m heq] at hiff
      exact hnot (hiff.mpr (by linarith))
    exact ⟨hthree 29 (by norm_num) (by norm_num) (by decide),
      hthree 57 (by norm_num) (by norm_num) (by decide),
      hthree 58 (by norm_num) (by norm_num) (by decide)⟩
  · rintro ⟨h29, h57, h58⟩ m hm hm'
    obtain ⟨habove, hbelow, hat⟩ := reachesPercent_near m (by simp; omega)
    rcases lt_trichotomy (m * total) (100 * wins) with hlt | heq | hgt
    · have hlt' : (m : ℚ) * total + 1 ≤ 100 * wins := by exact_mod_cast hlt
      have hq : (m : ℚ) / 100 + 1 / (100 * total) ≤ wins / total := by
        field_simp
        linarith
      refine ⟨fun _ => ?_, fun _ => habove.mono (by linarith)⟩
      have hnonneg : (0 : ℚ) ≤ 1 / (100 * total) := by positivity
      linarith
    · have hq := hratio m heq.symm
      have hne : m ≠ 29 ∧ m ≠ 57 ∧ m ≠ 58 := by
        refine ⟨?_, ?_, ?_⟩ <;> rintro rfl <;> push_cast at heq <;> omega
      rw [hq]
      exact ⟨fun _ => by linarith, fun _ => hat.mpr hne⟩
    · have hgt' : 100 * (wins : ℚ) + 1 ≤ m * total := by exact_mod_cast hgt
      have hq : (wins : ℚ) / total ≤ m / 100 - 1 / (100 * total) := by
        field_simp
        linarith
      refine ⟨fun h => absurd (h.mono (by linarith)) hbelow, ?_⟩
      intro h
      have hpositive : (0 : ℚ) < 1 / (100 * total) := by positivity
      linarith

/-- **When the percentage is the true one.**  For counters that are not negative and
    a total that a `Double` holds exactly, the percentage is the integer part of
    `100 * wins / total` exactly when no whole percentage lies between the ratio
    and its cut; up to a total of `2 ^ 46` this fails at 29, 57 and 58 percent
    sharp and nowhere else. -/
theorem percentage_eq_floor_iff (wins losses : SwiftInt) (hwins : 0 ≤ wins.val)
    (hlosses : 0 ≤ losses.val) (hpos : 0 < wins.val + losses.val)
    (hle : wins.val + losses.val ≤ 2 ^ 53) :
    ((∃ stat, calculateStat wins losses = .ok stat ∧
        stat.percentage.val = 100 * wins.val / (wins.val + losses.val)) ↔
      NoCutBetween ((wins.val : ℚ) / (wins.val + losses.val : ℤ))) ∧
    (wins.val + losses.val ≤ 2 ^ 46 →
      (NoCutBetween ((wins.val : ℚ) / (wins.val + losses.val : ℤ)) ↔
        100 * wins.val ≠ 29 * (wins.val + losses.val) ∧
        100 * wins.val ≠ 57 * (wins.val + losses.val) ∧
        100 * wins.val ≠ 58 * (wins.val + losses.val))) :=
  ⟨percentage_iff_noCutBetween hwins hlosses hpos hle,
    fun hsmall => noCutBetween_iff_of_le hpos hsmall⟩

/-- A third: the condition and the result, at one win and two losses. -/
theorem percentage_eq_floor_iff_third :
    ((∃ stat, calculateStat 1 ⟨2, by decide, by decide⟩ = .ok stat ∧
        stat.percentage.val = 100 * 1 / (1 + 2)) ↔ NoCutBetween ((1 : ℤ) / (1 + 2 : ℤ))) ∧
    ((1 : ℤ) + 2 ≤ 2 ^ 46 →
      (NoCutBetween ((1 : ℤ) / (1 + 2 : ℤ)) ↔
        (100 : ℤ) * 1 ≠ 29 * (1 + 2) ∧ (100 : ℤ) * 1 ≠ 57 * (1 + 2) ∧
          (100 : ℤ) * 1 ≠ 58 * (1 + 2))) :=
  percentage_eq_floor_iff 1 ⟨2, by decide, by decide⟩
    (by decide) (by decide) (by decide) (by decide)

/-- 29 wins of 100 show as 28 percent. -/
theorem percentage_eq_floor_counterexample :
    calculateStat ⟨29, by decide, by decide⟩ ⟨71, by decide, by decide⟩ =
        .ok ⟨⟨29, by decide, by decide⟩, ⟨71, by decide, by decide⟩,
          ⟨100, by decide, by decide⟩, ⟨28, by decide, by decide⟩⟩ ∧
      ¬ ∀ wins losses : SwiftInt, 0 ≤ wins.val → 0 ≤ losses.val →
          0 < wins.val + losses.val → wins.val + losses.val ≤ 2 ^ 53 →
          ∃ stat, calculateStat wins losses = .ok stat ∧
            stat.percentage.val = 100 * wins.val / (wins.val + losses.val) := by
  have hcomputed : calculateStat ⟨29, by decide, by decide⟩ ⟨71, by decide, by decide⟩ =
      .ok ⟨⟨29, by decide, by decide⟩, ⟨71, by decide, by decide⟩,
        ⟨100, by decide, by decide⟩, ⟨28, by decide, by decide⟩⟩ := by
    decide +kernel
  refine ⟨hcomputed, ?_⟩
  intro h
  obtain ⟨stat, hok, hpercentage⟩ := h ⟨29, by decide, by decide⟩ ⟨71, by decide, by decide⟩
    (by decide) (by decide) (by decide) (by decide)
  rw [hcomputed] at hok
  cases hok
  exact absurd hpercentage (by decide)

end W3Stats

import Mathlib.Algebra.BigOperators.Ring.Finset
import Mathlib.Algebra.Order.BigOperators.Group.Finset
import W3Stats.StatsViewController

/-!
# The order of the displayed percentages

The percentage of a record is two roundings and a truncation away from its win
ratio, and each of them is monotone, so the percentages keep the order of the
ratios.  The one strict bound is at the top: a single loss out of `2 ^ 53` games
is still seen.  The overall percentage then lies between those of the races that
were played, because its ratio is the mediant of theirs.
-/

namespace W3Stats

/-! ### Mediants -/

section Mediant

variable {ι R : Type*} [CommRing R] [LinearOrder R] [IsStrictOrderedRing R] {s : Finset ι}

/-- Some ratio of a family is at most the ratio of the sums. -/
theorem exists_le_mediant (hs : s.Nonempty) (part total : ι → R) :
    ∃ i ∈ s, part i * ∑ j ∈ s, total j ≤ (∑ j ∈ s, part j) * total i := by
  apply Finset.exists_le_of_sum_le hs
  rw [← Finset.sum_mul, ← Finset.mul_sum]

/-- Some ratio of a family is at least the ratio of the sums. -/
theorem exists_mediant_le (hs : s.Nonempty) (part total : ι → R) :
    ∃ i ∈ s, (∑ j ∈ s, part j) * total i ≤ part i * ∑ j ∈ s, total j := by
  apply Finset.exists_le_of_sum_le hs
  rw [← Finset.sum_mul, ← Finset.mul_sum]

end Mediant

/-! ### The percentage of one record -/

/-- A record that is not empty and whose games a `Double` counts exactly. -/
structure Played (wins losses : SwiftInt) : Prop where
  wins_nonneg : 0 ≤ wins.val
  losses_nonneg : 0 ≤ losses.val
  pos : 0 < wins.val + losses.val
  le : wins.val + losses.val ≤ 2 ^ 53

variable {wins losses wins' losses' : SwiftInt} {stat stat' : Stat}

theorem describes_of_eq_ok (hwins : 0 ≤ wins.val) (hlosses : 0 ≤ losses.val)
    (h : calculateStat wins losses = .ok stat) : stat.Describes wins losses := by
  rcases calculateStat_checked hwins hlosses with ⟨stat', hstat, hdesc⟩ | ⟨herror, -⟩
  · rw [hstat] at h
    cases h
    exact hdesc
  · rw [herror] at h
    cases h

namespace Played

theorem exists_stat (h : Played wins losses) : ∃ stat, calculateStat wins losses = .ok stat := by
  rcases calculateStat_checked h.wins_nonneg h.losses_nonneg with ⟨stat, hstat, -⟩ | ⟨-, hover⟩
  · exact ⟨stat, hstat⟩
  · have hle := h.le
    omega

theorem describes (h : Played wins losses) (hstat : calculateStat wins losses = .ok stat) :
    stat.Describes wins losses :=
  describes_of_eq_ok h.wins_nonneg h.losses_nonneg hstat

theorem percentage_eq (h : Played wins losses) (hstat : calculateStat wins losses = .ok stat) :
    stat.percentage.val =
      ⌊double (double ((wins.val : ℚ) / (wins.val + losses.val : ℤ)) * 100)⌋ :=
  (h.describes hstat).percentage_eq h.wins_nonneg h.losses_nonneg h.pos h.le

/-- The largest ratio below one, of a single loss in `2 ^ 53` games, does not round
    up to 100 percent. -/
theorem not_reachesPercent_hundred : ¬ ReachesPercent 100 (1 - 1 / 2 ^ 53) := by
  decide +kernel

theorem reachesPercent_hundred_one : ReachesPercent 100 1 := by
  decide +kernel

theorem percentage_eq_hundred_iff (h : Played wins losses)
    (hstat : calculateStat wins losses = .ok stat) :
    stat.percentage.val = 100 ↔ losses.val = 0 := by
  have hdesc := h.describes hstat
  have hmem := hdesc.percentage_mem
  have hreach : 100 ≤ stat.percentage.val ↔
      ReachesPercent 100 ((wins.val : ℚ) / (wins.val + losses.val : ℤ)) :=
    hdesc.le_percentage_iff h.wins_nonneg h.losses_nonneg h.pos h.le (by norm_num) le_rfl
  have hcast : (0 : ℚ) < (wins.val + losses.val : ℤ) := Int.cast_pos.mpr h.pos
  constructor
  · intro hundred
    by_contra hne
    -- the ratio is one minus the share of the losses, and that is at least `1 / 2 ^ 53`
    have hlosses : (1 : ℚ) ≤ losses.val := by
      have hnonneg := h.losses_nonneg
      exact_mod_cast (by omega : (1 : ℤ) ≤ losses.val)
    have hle : ((wins.val + losses.val : ℤ) : ℚ) ≤ 2 ^ 53 := by exact_mod_cast h.le
    have hratio : (wins.val : ℚ) / (wins.val + losses.val : ℤ) ≤ 1 - 1 / 2 ^ 53 := by
      rw [div_le_iff₀ hcast]
      push_cast at hcast hle ⊢
      linarith
    exact not_reachesPercent_hundred ((hreach.mp hundred.ge).mono hratio)
  · intro hzero
    have hone : (wins.val : ℚ) / (wins.val + losses.val : ℤ) = 1 := by
      rw [div_eq_one_iff_eq hcast.ne', hzero, add_zero]
    have hge := hreach.mpr (hone ▸ reachesPercent_hundred_one)
    omega

/-- The percentages keep the order of the win ratios. -/
theorem percentage_le (h : Played wins losses) (h' : Played wins' losses')
    (hstat : calculateStat wins losses = .ok stat)
    (hstat' : calculateStat wins' losses' = .ok stat')
    (hratio : wins.val * (wins'.val + losses'.val) ≤ wins'.val * (wins.val + losses.val)) :
    stat.percentage.val ≤ stat'.percentage.val := by
  have hcast : (0 : ℚ) < (wins.val + losses.val : ℤ) := Int.cast_pos.mpr h.pos
  have hcast' : (0 : ℚ) < (wins'.val + losses'.val : ℤ) := Int.cast_pos.mpr h'.pos
  have hnonneg : (0 : ℚ) ≤ (wins.val : ℚ) / (wins.val + losses.val : ℤ) :=
    div_nonneg (Int.cast_nonneg h.wins_nonneg) hcast.le
  have hquot : (wins.val : ℚ) / (wins.val + losses.val : ℤ) ≤
      (wins'.val : ℚ) / (wins'.val + losses'.val : ℤ) := by
    rw [div_le_div_iff₀ hcast hcast']
    exact_mod_cast hratio
  have hrounded := double_mono hnonneg hquot
  have hscaled := double_mono (mul_nonneg (double_nonneg hnonneg) (by norm_num))
    (mul_le_mul_of_nonneg_right hrounded (by norm_num : (0 : ℚ) ≤ 100))
  rw [h.percentage_eq hstat, h'.percentage_eq hstat']
  exact Int.floor_le_floor hscaled

end Played

/-! ### One more game -/

/-- At `2 ^ 53` games the next total is no `Double` and rounds back. -/
theorem double_limit_add_one : double (2 ^ 53 + 1) = 2 ^ 53 := by
  decide +kernel

theorem toDouble_add_one {total total' : SwiftInt} (h : total.val = 2 ^ 53)
    (h' : total'.val = total.val + 1) : total'.toDouble = total.toDouble := by
  have hval' : (total'.val : ℚ) = 2 ^ 53 + 1 := by
    rw [h', h]
    norm_num
  rw [toDouble_of_le (a := total) (by omega) (by omega), SwiftInt.toDouble, hval', h,
    double_limit_add_one]
  norm_num

/-- More wins of a total with the same `Double` give no lower percentage. -/
theorem percentageOf_mono {total total' : SwiftInt} (hwins : 0 ≤ wins.val)
    (hle : wins.val ≤ wins'.val) (hpos : 0 < total.val)
    (htotal : total'.toDouble = total.toDouble) :
    percentageOf wins total ≤ percentageOf wins' total' := by
  have hcast : (0 : ℚ) ≤ wins.val := Int.cast_nonneg hwins
  have hdenominator : 0 < total.toDouble := NearestEven.rnd_pos (Int.cast_pos.mpr hpos)
  have hnumerator : wins.toDouble ≤ wins'.toDouble :=
    double_mono hcast (Int.cast_le.mpr hle)
  have hquot : 0 ≤ wins.toDouble / total.toDouble :=
    div_nonneg (double_nonneg hcast) hdenominator.le
  have hrounded := double_mono hquot (div_le_div_of_nonneg_right hnumerator hdenominator.le)
  rw [percentageOf, percentageOf, htotal]
  apply double_mono
  · exact mul_nonneg (double_nonneg hquot) (by norm_num)
  · exact mul_le_mul_of_nonneg_right hrounded (by norm_num)

theorem Stat.Describes.percentage_of_pos (h : stat.Describes wins losses)
    (hpos : 0 < wins.val + losses.val) :
    stat.percentage.val = ⌊percentageOf wins stat.total⌋ := by
  have htotal := h.total
  rw [h.percentage, if_pos (by omega)]

namespace Played

/-- A further win does not lower the percentage. -/
theorem percentage_le_of_win (h : Played wins losses) (hwin : wins'.val = wins.val + 1)
    (hstat : calculateStat wins losses = .ok stat)
    (hstat' : calculateStat wins' losses = .ok stat') :
    stat.percentage.val ≤ stat'.percentage.val := by
  have hwins := h.wins_nonneg
  have hlosses := h.losses_nonneg
  have hpos := h.pos
  rcases h.le.lt_or_eq with hlt | heq
  · have h' : Played wins' losses := ⟨by omega, hlosses, by omega, by omega⟩
    apply h.percentage_le h' hstat hstat'
    rw [hwin]
    linarith [mul_comm wins.val losses.val]
  · have hdesc := h.describes hstat
    have hdesc' := describes_of_eq_ok (by omega) hlosses hstat'
    have htotal := hdesc.total
    have htotal' := hdesc'.total
    rw [hdesc.percentage_of_pos hpos, hdesc'.percentage_of_pos (by omega)]
    apply Int.floor_le_floor
    exact percentageOf_mono hwins (by omega) (by omega) (toDouble_add_one (by omega) (by omega))

/-- A further loss does not raise the percentage. -/
theorem percentage_le_of_loss (h : Played wins losses) (hloss : losses'.val = losses.val + 1)
    (hstat : calculateStat wins losses = .ok stat)
    (hstat' : calculateStat wins losses' = .ok stat') :
    stat'.percentage.val ≤ stat.percentage.val := by
  have hwins := h.wins_nonneg
  have hlosses := h.losses_nonneg
  have hpos := h.pos
  rcases h.le.lt_or_eq with hlt | heq
  · have h' : Played wins losses' := ⟨hwins, by omega, by omega, by omega⟩
    apply h'.percentage_le h hstat' hstat
    rw [hloss]
    linarith
  · have hdesc := h.describes hstat
    have hdesc' := describes_of_eq_ok hwins (by omega) hstat'
    have htotal := hdesc.total
    have htotal' := hdesc'.total
    rw [hdesc.percentage_of_pos hpos, hdesc'.percentage_of_pos (by omega)]
    apply Int.floor_le_floor
    exact percentageOf_mono hwins le_rfl (by omega)
      (toDouble_add_one (by omega) (by omega)).symm

end Played

/-! ### The overall percentage -/

instance : Fintype Race where
  elems := {.human, .elf, .orc, .undead}
  complete := by
    intro race
    cases race <;> decide

namespace Stats

/-- The games counted against a race. -/
def games (stats : Stats) (race : Race) : Int :=
  (stats.counter .win race).val + (stats.counter .lose race).val

/-- The races that have been played. -/
def playedRaces (stats : Stats) : Finset Race := Finset.univ.filter fun race => 0 < stats.games race

variable {stats : Stats}

theorem sum_eq_sum_univ (stats : Stats) (result : ResultType) :
    stats.sum result = ∑ race, (stats.counter result race).val := by
  show _ = (stats.counter result .human).val + ((stats.counter result .elf).val +
    ((stats.counter result .orc).val + ((stats.counter result .undead).val + 0)))
  rw [sum]
  ring

theorem total_eq_sum_univ (stats : Stats) : stats.total = ∑ race, stats.games race := by
  rw [total, sum_eq_sum_univ, sum_eq_sum_univ, ← Finset.sum_add_distrib]
  rfl

theorem games_nonneg (h : stats.Nonneg) (race : Race) : 0 ≤ stats.games race :=
  Int.add_nonneg (h .win race) (h .lose race)

theorem games_le_total (h : stats.Nonneg) (race : Race) : stats.games race ≤ stats.total := by
  rw [total_eq_sum_univ]
  exact Finset.single_le_sum (fun race _ => games_nonneg h race) (Finset.mem_univ race)

@[simp] theorem mem_playedRaces {race : Race} :
    race ∈ stats.playedRaces ↔ 0 < stats.games race := by
  simp [playedRaces]

theorem played_of_mem (h : stats.Nonneg) (hle : stats.total ≤ 2 ^ 53) {race : Race}
    (hrace : race ∈ stats.playedRaces) :
    Played (stats.counter .win race) (stats.counter .lose race) :=
  ⟨h .win race, h .lose race, mem_playedRaces.mp hrace, (games_le_total h race).trans hle⟩

/-- A race that has not been played adds nothing. -/
theorem sum_playedRaces (h : stats.Nonneg) {f : Race → Int}
    (hf : ∀ race, stats.games race = 0 → f race = 0) :
    ∑ race ∈ stats.playedRaces, f race = ∑ race, f race := by
  apply Finset.sum_filter_of_ne
  intro race _ hne
  have hnonneg := games_nonneg h race
  by_contra hnot
  exact hne (hf race (by omega))

theorem sum_playedRaces_win (h : stats.Nonneg) :
    ∑ race ∈ stats.playedRaces, (stats.counter .win race).val = stats.sum .win := by
  rw [sum_eq_sum_univ]
  apply sum_playedRaces h
  intro race hgames
  have hwins := h .win race
  have hlosses := h .lose race
  rw [games] at hgames
  omega

theorem sum_playedRaces_games (h : stats.Nonneg) :
    ∑ race ∈ stats.playedRaces, stats.games race = stats.total := by
  rw [total_eq_sum_univ]
  exact sum_playedRaces h fun race hgames => hgames

theorem nonempty_playedRaces (h : stats.Nonneg) (hpos : 0 < stats.total) :
    stats.playedRaces.Nonempty := by
  rw [Finset.nonempty_iff_ne_empty]
  intro hempty
  have htotal := sum_playedRaces_games h
  rw [hempty, Finset.sum_empty] at htotal
  omega

/-- The percentages of the races that have been played. -/
def playedPercentages (stats : Stats) (stat : Race → Stat) : Set Int :=
  {p | ∃ race, 0 < stats.games race ∧ p = (stat race).percentage.val}

theorem exists_isLeast_playedPercentages (h : stats.playedRaces.Nonempty) (stat : Race → Stat) :
    ∃ least, IsLeast (stats.playedPercentages stat) least := by
  obtain ⟨race, hrace, hmin⟩ :=
    Finset.exists_min_image stats.playedRaces (fun race => (stat race).percentage.val) h
  refine ⟨_, ⟨race, mem_playedRaces.mp hrace, rfl⟩, ?_⟩
  rintro _ ⟨race', hrace', rfl⟩
  exact hmin race' (mem_playedRaces.mpr hrace')

theorem exists_isGreatest_playedPercentages (h : stats.playedRaces.Nonempty)
    (stat : Race → Stat) : ∃ greatest, IsGreatest (stats.playedPercentages stat) greatest := by
  obtain ⟨race, hrace, hmax⟩ :=
    Finset.exists_max_image stats.playedRaces (fun race => (stat race).percentage.val) h
  refine ⟨_, ⟨race, mem_playedRaces.mp hrace, rfl⟩, ?_⟩
  rintro _ ⟨race', hrace', rfl⟩
  exact hmax race' (mem_playedRaces.mpr hrace')

/-- The ratio over all races is the mediant of those of the played ones. -/
theorem overall_between (h : stats.Nonneg) (hpos : 0 < stats.total) (hle : stats.total ≤ 2 ^ 53)
    {stat : Race → Stat} (hstat : ∀ race, calculateStat (stats.counter .win race)
      (stats.counter .lose race) = .ok (stat race)) {wins losses : SwiftInt} {overall : Stat}
    (hwins : wins.val = stats.sum .win) (hlosses : losses.val = stats.sum .lose)
    (hoverall : calculateStat wins losses = .ok overall) {least greatest : Int}
    (hleast : IsLeast (stats.playedPercentages stat) least)
    (hgreatest : IsGreatest (stats.playedPercentages stat) greatest) :
    least ≤ overall.percentage.val ∧ overall.percentage.val ≤ greatest := by
  have hnonempty := nonempty_playedRaces h hpos
  have htotal : wins.val + losses.val = stats.total := by
    rw [hwins, hlosses]
    rfl
  have hsum : ∀ result, 0 ≤ stats.sum result := by
    intro result
    rw [sum_eq_sum_univ]
    exact Finset.sum_nonneg fun race _ => h result race
  have hplayed : Played wins losses :=
    ⟨hwins ▸ hsum .win, hlosses ▸ hsum .lose, htotal ▸ hpos, htotal ▸ hle⟩
  constructor
  · obtain ⟨race, hrace, hmediant⟩ := exists_le_mediant hnonempty
      (fun race => (stats.counter .win race).val) stats.games
    rw [sum_playedRaces_win h, sum_playedRaces_games h, ← hwins, ← htotal] at hmediant
    have hpercentage := (played_of_mem h hle hrace).percentage_le hplayed (hstat race) hoverall
      hmediant
    exact (hleast.2 ⟨race, mem_playedRaces.mp hrace, rfl⟩).trans hpercentage
  · obtain ⟨race, hrace, hmediant⟩ := exists_mediant_le hnonempty
      (fun race => (stats.counter .win race).val) stats.games
    rw [sum_playedRaces_win h, sum_playedRaces_games h, ← hwins, ← htotal] at hmediant
    have hpercentage := hplayed.percentage_le (played_of_mem h hle hrace) hoverall (hstat race)
      hmediant
    exact hpercentage.trans (hgreatest.2 ⟨race, mem_playedRaces.mp hrace, rfl⟩)

end Stats

/-- The percentages a display shows, and the counters they are computed from. -/
structure Display.Percentages (display : Display) (player : Player) (stat : Race → Stat)
    (overall : Stat) : Prop where
  versusStat : ∀ race, calculateStat (player.stats.counter .win race)
    (player.stats.counter .lose race) = .ok (stat race)
  versusText : ∀ race, (display.versusView race).versusHeaderViewContent.percentage =
    (stat race).percentageText
  playerStat : ∃ wins losses, wins.val = player.stats.sum .win ∧
    losses.val = player.stats.sum .lose ∧ calculateStat wins losses = .ok overall
  playerText : display.playerView.percentage = overall.percentageText

/-- The overall percentage `showStats` displays lies between the smallest and the
    largest percentage of the races that have been played. -/
theorem Player.displays_between {player : Player} (h : player.stats.Nonneg)
    (hpos : 0 < player.stats.total) (hle : player.stats.total ≤ 2 ^ 53) :
    ∃ display stat overall least greatest, player.display = .ok display ∧
      display.Percentages player stat overall ∧
      IsLeast (player.stats.playedPercentages stat) least ∧
      IsGreatest (player.stats.playedPercentages stat) greatest ∧
      least ≤ overall.percentage.val ∧ overall.percentage.val ≤ greatest := by
  rcases Player.display_checked h with ⟨display, hdisplay, -⟩ | ⟨-, hover⟩
  · obtain ⟨hviews, wins, losses, overall, hoverall, hwins, hlosses, hplayer⟩ :=
      Player.views_of_display hdisplay
    choose stat hstat hview using hviews
    have hnonempty := Stats.nonempty_playedRaces h hpos
    obtain ⟨least, hleast⟩ := Stats.exists_isLeast_playedPercentages hnonempty stat
    obtain ⟨greatest, hgreatest⟩ := Stats.exists_isGreatest_playedPercentages hnonempty stat
    refine ⟨display, stat, overall, least, greatest, hdisplay,
      ⟨hstat, ?_, ⟨wins, losses, hwins, hlosses, hoverall⟩, ?_⟩, hleast, hgreatest,
      Stats.overall_between h hpos hle hstat hwins hlosses hoverall hleast hgreatest⟩
    · intro race
      rw [hview]
      rfl
    · rw [hplayer]
  · omega

/-! ### The order of the percentages -/

/-- **The displayed percentages are bounded and keep the order of the win ratios.**
    Between 0 and 100, at 100 only without a loss, monotone in the ratio, so not
    lowered by a win nor raised by a loss; and the overall percentage lies between
    those of the races that have been played. -/
theorem percentage_order :
    (∀ wins losses, Played wins losses → ∃ stat, calculateStat wins losses = .ok stat ∧
      stat.percentage.val =
        ⌊double (double ((wins.val : ℚ) / (wins.val + losses.val : ℤ)) * 100)⌋ ∧
      (0 ≤ stat.percentage.val ∧ stat.percentage.val ≤ 100) ∧
      (stat.percentage.val = 100 ↔ losses.val = 0)) ∧
    (∀ wins losses wins' losses' stat stat', Played wins losses → Played wins' losses' →
      calculateStat wins losses = .ok stat → calculateStat wins' losses' = .ok stat' →
      wins.val * (wins'.val + losses'.val) ≤ wins'.val * (wins.val + losses.val) →
      stat.percentage.val ≤ stat'.percentage.val) ∧
    (∀ wins losses wins' stat stat', Played wins losses → wins'.val = wins.val + 1 →
      calculateStat wins losses = .ok stat → calculateStat wins' losses = .ok stat' →
      stat.percentage.val ≤ stat'.percentage.val) ∧
    (∀ wins losses losses' stat stat', Played wins losses → losses'.val = losses.val + 1 →
      calculateStat wins losses = .ok stat → calculateStat wins losses' = .ok stat' →
      stat'.percentage.val ≤ stat.percentage.val) ∧
    (∀ player : Player, player.stats.Nonneg → 0 < player.stats.total →
      player.stats.total ≤ 2 ^ 53 →
      ∃ display stat overall least greatest, player.display = .ok display ∧
        display.Percentages player stat overall ∧
        IsLeast (player.stats.playedPercentages stat) least ∧
        IsGreatest (player.stats.playedPercentages stat) greatest ∧
        least ≤ overall.percentage.val ∧ overall.percentage.val ≤ greatest) := by
  refine ⟨?_, ?_, ?_, ?_, ?_⟩
  · intro wins losses h
    obtain ⟨stat, hstat⟩ := h.exists_stat
    exact ⟨stat, hstat, h.percentage_eq hstat, (h.describes hstat).percentage_mem,
      h.percentage_eq_hundred_iff hstat⟩
  · intro wins losses wins' losses' stat stat' h h' hstat hstat' hratio
    exact h.percentage_le h' hstat hstat' hratio
  · intro wins losses wins' stat stat' h hwin hstat hstat'
    exact h.percentage_le_of_win hwin hstat hstat'
  · intro wins losses losses' stat stat' h hloss hstat hstat'
    exact h.percentage_le_of_loss hloss hstat hstat'
  · intro player h hpos hle
    exact player.displays_between h hpos hle

/-- One win and one loss against one race and one win against another. -/
theorem percentage_order_two_races :
    (∃ stat, calculateStat 1 1 = .ok stat ∧
      stat.percentage.val = ⌊double (double ((1 : ℤ) / (1 + 1 : ℤ)) * 100)⌋ ∧
      (0 ≤ stat.percentage.val ∧ stat.percentage.val ≤ 100) ∧
      (stat.percentage.val = 100 ↔ (1 : ℤ) = 0)) ∧
    (∀ stat stat', calculateStat 1 1 = .ok stat → calculateStat 1 0 = .ok stat' →
      stat.percentage.val ≤ stat'.percentage.val) ∧
    (∀ stat stat', calculateStat 0 1 = .ok stat → calculateStat 1 1 = .ok stat' →
      stat.percentage.val ≤ stat'.percentage.val) ∧
    (∀ stat stat', calculateStat 1 0 = .ok stat → calculateStat 1 1 = .ok stat' →
      stat'.percentage.val ≤ stat.percentage.val) ∧
    ∃ display stat overall least greatest,
      Player.display ⟨"abc", .orc, ⟨⟨1, 1⟩, ⟨1, 0⟩, .empty, .empty⟩⟩ = .ok display ∧
      display.Percentages ⟨"abc", .orc, ⟨⟨1, 1⟩, ⟨1, 0⟩, .empty, .empty⟩⟩ stat overall ∧
      IsLeast (Stats.playedPercentages ⟨⟨1, 1⟩, ⟨1, 0⟩, .empty, .empty⟩ stat) least ∧
      IsGreatest (Stats.playedPercentages ⟨⟨1, 1⟩, ⟨1, 0⟩, .empty, .empty⟩ stat) greatest ∧
      least ≤ overall.percentage.val ∧ overall.percentage.val ≤ greatest := by
  have hnonneg : Stats.Nonneg ⟨⟨1, 1⟩, ⟨1, 0⟩, .empty, .empty⟩ := by
    intro result race
    cases result <;> cases race <;> decide
  obtain ⟨hrecord, hratio, hwin, hloss, hoverall⟩ := percentage_order
  exact ⟨hrecord 1 1 ⟨by decide, by decide, by decide, by decide⟩,
    fun stat stat' h h' => hratio 1 1 1 0 stat stat'
      ⟨by decide, by decide, by decide, by decide⟩ ⟨by decide, by decide, by decide, by decide⟩
      h h' (by decide),
    fun stat stat' h h' => hwin 0 1 1 stat stat' ⟨by decide, by decide, by decide, by decide⟩
      (by decide) h h',
    fun stat stat' h h' => hloss 1 0 1 stat stat' ⟨by decide, by decide, by decide, by decide⟩
      (by decide) h h',
    hoverall _ hnonneg (by decide) (by decide)⟩

end W3Stats

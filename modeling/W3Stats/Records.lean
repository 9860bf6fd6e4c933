import W3Stats.SwiftRuntime

/-!
# The business objects

`Race`, `Desc`, `Stats`, `Player` and `MatchResult`.  The classes of the source
are values here: `loadPlayer` builds every `Player` from fresh `Stats` and `Desc`
objects and no two handlers share one, so a mutation is seen only through the
reference it is made with.
-/

namespace W3Stats

/-! ### Race -/

inductive Race where
  | human
  | elf
  | orc
  | undead
deriving DecidableEq, Repr

namespace Race

/-- The raw value the compiler gives a case of `enum Race: String`. -/
def rawValue : Race → String
  | human => "human"
  | elf => "elf"
  | orc => "orc"
  | undead => "undead"

/-- `Race.init(rawValue:)`, total by its `default`. -/
def ofRawValue (rawValue : String) : Race :=
  if rawValue = "elf" then elf
  else if rawValue = "orc" then orc
  else if rawValue = "undead" then undead
  else human

def allRaces : List Race := [elf, human, orc, undead]

@[simp] theorem ofRawValue_rawValue (race : Race) : ofRawValue race.rawValue = race := by
  cases race <;> decide

end Race

/-! ### Desc, Stats, Player -/

@[ext] structure Desc where
  wins : SwiftInt
  losses : SwiftInt
deriving DecidableEq, Repr

/-- `Desc()`. -/
def Desc.empty : Desc := ⟨0, 0⟩

@[ext] structure Stats where
  vsHuman : Desc
  vsElf : Desc
  vsOrc : Desc
  vsUndead : Desc
deriving DecidableEq, Repr

/-- The `Stats` value `addNewPlayer` starts a player with. -/
def Stats.empty : Stats := ⟨.empty, .empty, .empty, .empty⟩

@[ext] structure Player where
  name : String
  race : Race
  stats : Stats
deriving DecidableEq, Repr

/-! ### MatchResult -/

inductive ResultType where
  | win
  | lose
deriving DecidableEq, Repr

structure MatchResult where
  vsRace : Race
  resultType : ResultType
deriving DecidableEq, Repr

/-! ### One counter of the eight

`counter` and `setCounter` are the read and the write branch that the nested
`switch` statements of the stats screen select. -/

namespace Stats

def counter (stats : Stats) : ResultType → Race → SwiftInt
  | .win, .human => stats.vsHuman.wins
  | .win, .elf => stats.vsElf.wins
  | .win, .orc => stats.vsOrc.wins
  | .win, .undead => stats.vsUndead.wins
  | .lose, .human => stats.vsHuman.losses
  | .lose, .elf => stats.vsElf.losses
  | .lose, .orc => stats.vsOrc.losses
  | .lose, .undead => stats.vsUndead.losses

def setCounter (stats : Stats) (newValue : SwiftInt) : ResultType → Race → Stats
  | .win, .human => { stats with vsHuman := { stats.vsHuman with wins := newValue } }
  | .win, .elf => { stats with vsElf := { stats.vsElf with wins := newValue } }
  | .win, .orc => { stats with vsOrc := { stats.vsOrc with wins := newValue } }
  | .win, .undead => { stats with vsUndead := { stats.vsUndead with wins := newValue } }
  | .lose, .human => { stats with vsHuman := { stats.vsHuman with losses := newValue } }
  | .lose, .elf => { stats with vsElf := { stats.vsElf with losses := newValue } }
  | .lose, .orc => { stats with vsOrc := { stats.vsOrc with losses := newValue } }
  | .lose, .undead => { stats with vsUndead := { stats.vsUndead with losses := newValue } }

/-- The exact sum of the four counters of one kind. -/
def sum (stats : Stats) (result : ResultType) : Int :=
  (stats.counter result .human).val + (stats.counter result .elf).val +
    (stats.counter result .orc).val + (stats.counter result .undead).val

/-- The exact sum of the eight counters. -/
def total (stats : Stats) : Int := stats.sum .win + stats.sum .lose

/-- No counter is negative. -/
def Nonneg (stats : Stats) : Prop := ∀ result race, 0 ≤ (stats.counter result race).val

@[simp] theorem counter_setCounter_self (stats : Stats) (v : SwiftInt) (result : ResultType)
    (race : Race) : (stats.setCounter v result race).counter result race = v := by
  cases result <;> cases race <;> rfl

theorem counter_setCounter_of_ne (stats : Stats) (v : SwiftInt) {result result' : ResultType}
    {race race' : Race} (h : (result', race') ≠ (result, race)) :
    (stats.setCounter v result race).counter result' race' = stats.counter result' race' := by
  cases result <;> cases race <;> cases result' <;> cases race' <;>
    first | rfl | exact (h rfl).elim

theorem counter_setCounter (stats : Stats) (v : SwiftInt) (result result' : ResultType)
    (race race' : Race) :
    (stats.setCounter v result race).counter result' race' =
      if result' = result ∧ race' = race then v else stats.counter result' race' := by
  split
  · rename_i h
    obtain ⟨rfl, rfl⟩ := h
    exact counter_setCounter_self ..
  · rename_i h
    exact counter_setCounter_of_ne _ _ (fun heq => h ⟨congrArg Prod.fst heq, congrArg Prod.snd heq⟩)

@[simp] theorem setCounter_counter (stats : Stats) (result : ResultType) (race : Race) :
    stats.setCounter (stats.counter result race) result race = stats := by
  cases result <;> cases race <;> rfl

theorem total_setCounter (stats : Stats) (v : SwiftInt) (result : ResultType) (race : Race) :
    (stats.setCounter v result race).total =
      stats.total - (stats.counter result race).val + v.val := by
  cases result <;> cases race <;> simp only [total, sum, setCounter, counter] <;> omega

theorem Nonneg.setCounter {stats : Stats} (h : stats.Nonneg) {v : SwiftInt} (hv : 0 ≤ v.val)
    (result : ResultType) (race : Race) : (stats.setCounter v result race).Nonneg := by
  intro result' race'
  rw [counter_setCounter]
  split
  · exact hv
  · exact h result' race'

theorem Nonneg.total_nonneg {stats : Stats} (h : stats.Nonneg) : 0 ≤ stats.total := by
  have hsum : ∀ result, 0 ≤ stats.sum result := by
    intro result
    have hhuman := h result .human
    have helf := h result .elf
    have horc := h result .orc
    have hundead := h result .undead
    rw [sum]
    omega
  exact Int.add_nonneg (hsum .win) (hsum .lose)

theorem counter_le_total {stats : Stats} (h : stats.Nonneg) (result : ResultType) (race : Race) :
    (stats.counter result race).val ≤ stats.total := by
  have hzero := (h.setCounter (v := 0) (le_refl 0) result race).total_nonneg
  rw [total_setCounter, SwiftInt.val_zero] at hzero
  omega

theorem nonneg_empty : Stats.empty.Nonneg := by
  intro result race
  cases result <;> cases race <;> exact le_refl 0

end Stats

def Player.setCounter (player : Player) (newValue : SwiftInt) (result : ResultType)
    (race : Race) : Player :=
  { player with stats := player.stats.setCounter newValue result race }

@[simp] theorem Player.stats_setCounter (player : Player) (newValue : SwiftInt)
    (result : ResultType) (race : Race) :
    (player.setCounter newValue result race).stats =
      player.stats.setCounter newValue result race := rfl

end W3Stats

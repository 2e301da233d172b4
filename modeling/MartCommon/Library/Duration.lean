import MartCommon.Library.IntType
import Mathlib.Data.Int.GCD

namespace MartCommon.Library

/-- How many of one unit another one is, in lowest terms. -/
structure Ratio where
  num : Int
  den : Int
  num_pos : 0 < num
  den_pos : 0 < den
  reduced : num.gcd den = 1

namespace Ratio

/-- A unit in terms of itself. -/
def one : Ratio := ⟨1, 1, by omega, by omega, rfl⟩

/-- A unit in terms of one that is a whole number of times as long. -/
def part (times : Nat) (positive : 0 < times) : Ratio :=
  ⟨1, times, by omega, by omega, Int.one_gcd⟩

end Ratio

namespace Duration

/-- Durations and points in time are counted in 64 bits. There is no count outside of their range. -/
def count (value : Int) : Option Int := IntType.int64.result value

/-- `duration_cast`, where a unit of the duration is that many units of the result. -/
def durationCast (ratio : Ratio) (duration : Int) : Option Int :=
  (count (duration * ratio.num)).map fun scaled => scaled.tdiv ratio.den

/-- A value in the range of the counts. -/
abbrev Fits (value : Int) : Prop := IntType.int64.InRange value

theorem fits_iff {value : Int} :
    Fits value ↔ -9223372036854775808 ≤ value ∧ value ≤ 9223372036854775807 :=
  Iff.rfl

@[simp] theorem count_eq_some_iff {value counted : Int} :
    count value = some counted ↔ Fits value ∧ value = counted :=
  IntType.result_eq_some_iff rfl

/-- What a cast gives is the duration, cut to whole units. -/
theorem durationCast_eq_some_iff {ratio : Ratio} {duration units : Int} :
    durationCast ratio duration = some units ↔
      Fits (duration * ratio.num) ∧ (duration * ratio.num).tdiv ratio.den = units := by
  simp [durationCast, Option.map_eq_some_iff, and_assoc]

/-- The cast of a duration that is not negative loses less than a unit. -/
theorem durationCast_bounds {ratio : Ratio} {duration units : Int} (nonneg : 0 ≤ duration)
    (cast : durationCast ratio duration = some units) :
    0 ≤ units ∧ units * ratio.den ≤ duration * ratio.num ∧
      duration * ratio.num < (units + 1) * ratio.den := by
  obtain ⟨-, rfl⟩ := durationCast_eq_some_iff.mp cast
  have scaled : 0 ≤ duration * ratio.num := Int.mul_nonneg nonneg (Int.le_of_lt ratio.num_pos)
  rw [Int.tdiv_eq_ediv_of_nonneg scaled]
  exact ⟨Int.ediv_nonneg scaled (Int.le_of_lt ratio.den_pos),
    Int.ediv_mul_le _ (Int.ne_of_gt ratio.den_pos), Int.lt_ediv_add_one_mul_self _ ratio.den_pos⟩

/-- The cast of a negative duration is not positive. -/
theorem durationCast_nonpos {ratio : Ratio} {duration units : Int} (negative : duration < 0)
    (cast : durationCast ratio duration = some units) : units ≤ 0 := by
  obtain ⟨-, rfl⟩ := durationCast_eq_some_iff.mp cast
  have scaled : 0 ≤ -(duration * ratio.num) := by
    rw [← Int.neg_mul]
    exact Int.mul_nonneg (by omega) (Int.le_of_lt ratio.num_pos)
  have mirrored := Int.tdiv_nonneg scaled (Int.le_of_lt ratio.den_pos)
  rw [Int.neg_tdiv] at mirrored
  omega

@[simp] theorem durationCast_one {duration units : Int} :
    durationCast .one duration = some units ↔ Fits duration ∧ duration = units := by
  rw [durationCast_eq_some_iff]
  show Fits (duration * 1) ∧ (duration * 1).tdiv 1 = units ↔ _
  rw [Int.mul_one, Int.tdiv_one]

end Duration

end MartCommon.Library

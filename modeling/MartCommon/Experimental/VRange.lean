import MartCommon.Library.Integral
import MartCommon.Library.IteratorLoop

namespace MartCommon.Experimental

open Library

/-- `std::ptrdiff_t` -/
def ptrdiff : IntegerType := ⟨⟨64, true⟩, by decide⟩

/-- `VIterator_rnd<T>` for an integer type `T`. -/
structure VIteratorRnd (T : IntegerType) where
  offset : T.Value
  step : T.Value
  i : ptrdiff.Value
  deriving DecidableEq

namespace VIteratorRnd

variable {T : IntegerType}

/-- `value_to_idx`. The division is that of the promoted type. -/
def valueToIdx (rngStart rngStep value : T.Value) : Option ptrdiff.Value :=
  if value = rngStart then some ⟨0, by decide⟩
  else if rngStep.val = 0 then none
  else
    (T.promoted.result (value - rngStart)).bind fun difference =>
      (T.promoted.result (difference.tdiv rngStep)).map fun quotient =>
        ⟨ptrdiff.convert quotient, IntType.convert_inRange ptrdiff.positive quotient⟩

/-- `VIterator_rnd( rng_start, rng_step, value )` -/
def construct (rngStart rngStep value : T.Value) : Option (VIteratorRnd T) :=
  (valueToIdx rngStart rngStep value).map fun i => ⟨rngStart, rngStep, i⟩

/-- The type of the arithmetic on a `T` and a `std::ptrdiff_t`. -/
def common (T : IntegerType) : IntType :=
  if T.promoted.bits < ptrdiff.bits then ptrdiff.toIntType else T.promoted

/-- `operator*` -/
def value (it : VIteratorRnd T) : Option Int :=
  ((common T).result (it.step * (common T).convert it.i)).bind fun product =>
    ((common T).result (product + it.offset)).map T.convert

/-- `operator++()` -/
def increment (it : VIteratorRnd T) : Option (VIteratorRnd T) :=
  (ptrdiff.stored ptrdiff (it.i + 1)).map fun i => { it with i := i }

/-- `operator==`. It asserts that both iterators have the offset and the step of the same range. -/
def eq (l r : VIteratorRnd T) : Bool := l.i.val == r.i.val

end VIteratorRnd

/-- `vrange_t<T>` -/
structure VRange (T : IntegerType) where
  startV : T.Value
  endV : T.Value
  stepV : T.Value

/-- `vrange( start, end )` -/
def vrange {T : IntegerType} (start last : T.Value) : VRange T :=
  ⟨start, last, ⟨0, T.zero_inRange⟩⟩

namespace VRange

variable {T : IntegerType} (range : VRange T)

def step (value : T.Value) : VRange T := { range with stepV := value }

def begin : Option (VIteratorRnd T) :=
  VIteratorRnd.construct range.startV range.stepV range.startV

def «end» : Option (VIteratorRnd T) :=
  (T.stored T (range.endV + range.stepV)).bind (VIteratorRnd.construct range.startV range.stepV)

/-- A loop that compares its iterator with the last one. -/
def loop (last : VIteratorRnd T) : IteratorLoop (VIteratorRnd T) Int where
  last it := it.eq last
  value := VIteratorRnd.value
  next := VIteratorRnd.increment

/-- The computation of the last iterator stays inside its types. -/
structure NoOverflow : Prop where
  sum : T.InRange (range.endV + range.stepV)
  difference : T.promoted.InRange (range.endV + range.stepV - range.startV)
  index : ptrdiff.InRange ((range.endV + range.stepV - range.startV : Int).tdiv range.stepV)

/-- The loop over the range ends, and it has visited the values from the start on, in steps, that do not
exceed the end. -/
def Yields : Prop :=
  ∃ first last values, range.begin = some first ∧ range.end = some last ∧
    (loop last).Visits first values ∧ values.Pairwise (· < ·) ∧
    ∀ value, value ∈ values ↔
      ∃ k : Nat, value = range.startV.val + (k : Int) * range.stepV.val ∧ value ≤ range.endV.val

end VRange

section Signed

variable {T : IntegerType}

theorem promoted_signed (signed : T.signed = true) : T.promoted.signed = true := by
  rw [IntType.promoted]
  split
  · rfl
  · exact signed

theorem common_positive (T : IntegerType) : 0 < (VIteratorRnd.common T).bits := by
  rw [VIteratorRnd.common]
  split
  · decide
  · exact T.positive_promoted

/-- What the promoted type represents, the arithmetic with a `std::ptrdiff_t` does too. -/
theorem common_inRange (signed : T.signed = true) {value : Int} (inRange : T.promoted.InRange value) :
    (VIteratorRnd.common T).InRange value := by
  rw [VIteratorRnd.common]
  split
  · rename_i small
    exact inRange.widen (promoted_signed signed) rfl (Nat.le_of_lt small)
  · exact inRange

theorem common_inRange_ptrdiff (signed : T.signed = true) {value : Int} (inRange : ptrdiff.InRange value) :
    (VIteratorRnd.common T).InRange value := by
  rw [VIteratorRnd.common]
  split
  · exact inRange
  · rename_i wide
    exact inRange.widen rfl (promoted_signed signed) (Nat.not_lt.mp wide)

end Signed

/-- Division drops the remainder on both sides of zero. -/
theorem tdiv_sides (x : Int) (step : Int) :
    0 ≤ x ∧ x.tdiv step = x / step ∨ x < 0 ∧ x.tdiv step = -(-x / step) := by
  rcases Int.lt_or_le x 0 with negative | nonneg
  · have opposite := Int.neg_tdiv (a := -x) (b := step)
    rw [Int.neg_neg, Int.tdiv_eq_ediv_of_nonneg (a := -x) (by omega)] at opposite
    exact .inr ⟨negative, opposite⟩
  · exact .inl ⟨nonneg, Int.tdiv_eq_ediv_of_nonneg nonneg⟩

/-- A quotient lies between zero and the dividend. -/
theorem inRange_tdiv {type : IntType} {x step : Int} (zero : type.InRange 0) (inRange : type.InRange x)
    (positive : 0 < step) : type.InRange (x.tdiv step) := by
  obtain ⟨low, high⟩ := inRange
  obtain ⟨least, most⟩ := zero
  rcases tdiv_sides x step with ⟨sign, quotient⟩ | ⟨sign, quotient⟩
  · have smaller := Int.ediv_le_self step sign
    have nonneg := Int.ediv_nonneg sign (Int.le_of_lt positive)
    rw [quotient]
    constructor <;> omega
  · have smaller := Int.ediv_le_self (a := -x) step (by omega)
    have nonneg := Int.ediv_nonneg (a := -x) (by omega) (Int.le_of_lt positive)
    rw [quotient]
    constructor <;> omega

/-- The quotient is not negative above the first step below zero. -/
theorem tdiv_nonneg_iff {x step : Int} (positive : 0 < step) : 0 ≤ x.tdiv step ↔ -step < x := by
  rcases tdiv_sides x step with ⟨sign, quotient⟩ | ⟨sign, quotient⟩
  · rw [quotient]
    exact iff_of_true (Int.ediv_nonneg sign (Int.le_of_lt positive)) (by omega)
  · have below := Int.ediv_lt_iff_lt_mul (a := -x) (b := 1) positive
    rw [quotient]
    omega

/-- The quotient counts the steps that fit. -/
theorem lt_tdiv_iff {x step : Int} (positive : 0 < step) (above : -step < x) (k : Nat) :
    (k : Int) < x.tdiv step ↔ (k : Int) * step ≤ x - step := by
  have forward : 0 ≤ (k : Int) * step := Int.mul_nonneg (Int.natCast_nonneg k) (Int.le_of_lt positive)
  rcases tdiv_sides x step with ⟨sign, quotient⟩ | ⟨sign, quotient⟩
  · have steps := Int.le_ediv_iff_mul_le (a := (k : Int) + 1) (b := x) positive
    rw [Int.add_mul, Int.one_mul] at steps
    rw [quotient]
    omega
  · have zero := (tdiv_nonneg_iff positive).mpr above
    have nonneg := Int.ediv_nonneg (a := -x) (by omega) (Int.le_of_lt positive)
    omega

namespace VRange

variable {T : IntegerType} {range : VRange T}

/-- The index of the last iterator. -/
theorem end_eq (positive : 0 < range.stepV.val) (noOverflow : range.NoOverflow) :
    range.end = some ⟨range.startV, range.stepV, ⟨_, noOverflow.index⟩⟩ := by
  have sum : T.stored T (range.endV + range.stepV) = some ⟨_, noOverflow.sum⟩ :=
    T.stored_eq rfl noOverflow.sum rfl fun _ => T.promoted_inRange noOverflow.sum
  rw [VRange.end, sum, Option.bind_some, VIteratorRnd.construct, VIteratorRnd.valueToIdx]
  split
  · rename_i empty
    have zero : range.endV.val + range.stepV.val - range.startV.val = 0 := by
      have same := congrArg Subtype.val empty
      simp only at same
      omega
    simp only [zero, Int.zero_tdiv, Option.map_some]
  · have quotient : T.promoted.InRange
        ((range.endV + range.stepV - range.startV : Int).tdiv range.stepV) :=
      inRange_tdiv (T.promoted_inRange T.zero_inRange) noOverflow.difference positive
    rw [if_neg (by omega), IntType.result_of_inRange noOverflow.difference, Option.bind_some,
      IntType.result_of_inRange quotient]
    simp only [Option.map_some, IntType.convert_of_inRange ptrdiff.positive noOverflow.index]

/-- The iterator with an index. -/
def iterator (range : VRange T) (k : Nat) : VIteratorRnd T :=
  ⟨range.startV, range.stepV, ⟨ptrdiff.convert k, IntType.convert_inRange ptrdiff.positive k⟩⟩

theorem begin_eq : range.begin = some (range.iterator 0) := by
  rw [begin, VIteratorRnd.construct, VIteratorRnd.valueToIdx, if_pos rfl]
  rfl

/-- Up to the end of the range no computation of a value overflows. -/
theorem value_iterator (signed : T.signed = true) (positive : 0 < range.stepV.val)
    (noOverflow : range.NoOverflow) {k : Nat} (small : ptrdiff.InRange k)
    (reached : range.startV.val + k * range.stepV.val ≤ range.endV.val) :
    (range.iterator k).value = some (range.startV.val + k * range.stepV.val) := by
  have forward : 0 ≤ (k : Int) * range.stepV.val :=
    Int.mul_nonneg (Int.natCast_nonneg k) (Int.le_of_lt positive)
  have product : T.promoted.InRange (range.stepV.val * k) := by
    obtain ⟨least, -⟩ := T.promoted_inRange T.zero_inRange
    obtain ⟨-, most⟩ := noOverflow.difference
    rw [Int.mul_comm]
    constructor <;> omega
  have sum : T.InRange (range.stepV.val * k + range.startV) := by
    obtain ⟨least, -⟩ := range.startV.property
    obtain ⟨-, most⟩ := range.endV.property
    rw [Int.mul_comm]
    constructor <;> omega
  have index : (VIteratorRnd.common T).convert k = k :=
    IntType.convert_of_inRange (common_positive T) (common_inRange_ptrdiff signed small)
  rw [VIteratorRnd.value, iterator]
  simp only [IntType.convert_of_inRange ptrdiff.positive small, index,
    IntType.result_of_inRange (common_inRange signed product), Option.bind_some,
    IntType.result_of_inRange (common_inRange signed (T.promoted_inRange sum)), Option.map_some,
    IntType.convert_of_inRange T.positive sum]
  rw [Int.add_comm, Int.mul_comm]

theorem increment_iterator {k : Nat} (small : ptrdiff.InRange (k + 1 : Nat)) :
    (range.iterator k).increment = some (range.iterator (k + 1)) := by
  have before : ptrdiff.InRange k := by
    obtain ⟨-, most⟩ := small
    exact ptrdiff.inRange_of_le (Int.natCast_nonneg k) (by omega)
  have stored : ptrdiff.stored ptrdiff (k + 1 : Nat) = some ⟨_, small⟩ :=
    ptrdiff.stored_eq rfl small rfl fun _ => ptrdiff.promoted_inRange small
  simp only [VIteratorRnd.increment, iterator, IntType.convert_of_inRange ptrdiff.positive before,
    IntType.convert_of_inRange ptrdiff.positive small]
  rw [← Int.natCast_succ, stored, Option.map_some]

/-- The first values of the range. -/
def numbers (range : VRange T) (count : Nat) : List Int :=
  (List.range count).map fun k : Nat => range.startV.val + (k : Int) * range.stepV.val

/-- A range whose last index is not negative is visited up to this index. -/
theorem visits_numbers (signed : T.signed = true) (positive : 0 < range.stepV.val)
    (noOverflow : range.NoOverflow) {last : VIteratorRnd T} {count : Nat}
    (index : last.i.val = count)
    (reached : ∀ k < count, range.startV.val + (k : Int) * range.stepV.val ≤ range.endV.val) :
    (loop last).Visits (range.iterator 0) (range.numbers count) := by
  have small : ∀ k ≤ count, ptrdiff.InRange k := by
    intro k le
    have most := last.i.property.2
    exact ptrdiff.inRange_of_le (Int.natCast_nonneg k) (by omega)
  have found : ∀ k ≤ count, (loop last).last (range.iterator k) = decide (k = count) := by
    intro k le
    have same := IntType.convert_of_inRange ptrdiff.positive (small k le)
    simp only [loop, VIteratorRnd.eq, iterator, same, index]
    exact decide_eq_decide.mpr Int.ofNat_inj
  apply IteratorLoop.visits_follow range.iterator
  · rw [found count (Nat.le_refl count), decide_eq_true rfl]
  · intro k before
    have shown := value_iterator signed positive noOverflow (small k (Nat.le_of_lt before))
      (reached k before)
    refine ⟨?_, shown, ?_⟩
    · rw [found k (Nat.le_of_lt before), decide_eq_false (Nat.ne_of_lt before)]
    · simp only [loop]
      exact increment_iterator (small (k + 1) before)

theorem pairwise_numbers (positive : 0 < range.stepV.val) (count : Nat) :
    (range.numbers count).Pairwise (· < ·) := by
  rw [numbers, List.pairwise_map]
  apply List.pairwise_lt_range.imp
  intro k l less
  have steps := Int.mul_lt_mul_of_pos_right (Int.ofNat_lt.mpr less) positive
  exact Int.add_lt_add_left steps _

/-- A range whose last index is not negative yields its numbers. -/
theorem yields_numbers (signed : T.signed = true) (positive : 0 < range.stepV.val)
    (noOverflow : range.NoOverflow)
    (near : range.startV.val - range.endV.val < 2 * range.stepV.val) : range.Yields := by
  have above : -range.stepV.val < range.endV.val + range.stepV.val - range.startV.val := by omega
  have index := Int.toNat_of_nonneg ((tdiv_nonneg_iff positive).mpr above)
  have reached (k : Nat) := lt_tdiv_iff positive above k
  rw [← index] at reached
  have last : (⟨range.startV, range.stepV, ⟨_, noOverflow.index⟩⟩ : VIteratorRnd T).i.val = _ :=
    index.symm
  have visits := visits_numbers signed positive noOverflow last fun k before => by
    have within := (reached k).mp (Int.ofNat_lt.mpr before)
    omega
  refine ⟨_, _, _, begin_eq, end_eq positive noOverflow, visits, pairwise_numbers positive _, ?_⟩
  intro value
  rw [numbers, List.mem_map]
  constructor
  · rintro ⟨k, before, rfl⟩
    have within := (reached k).mp (Int.ofNat_lt.mpr (List.mem_range.mp before))
    exact ⟨k, rfl, by omega⟩
  · rintro ⟨k, rfl, within⟩
    have before := (reached k).mpr (by omega)
    exact ⟨k, List.mem_range.mpr (Int.ofNat_lt.mp before), rfl⟩

theorem increment_i {it next : VIteratorRnd T} (moved : it.increment = some next) :
    next.i.val = it.i.val + 1 := by
  obtain ⟨i, stored, rfl⟩ := Option.map_eq_some_iff.mp moved
  obtain ⟨result, computed, rfl⟩ := Option.map_eq_some_iff.mp stored
  obtain ⟨inRange, same⟩ := Option.ite_none_right_eq_some.mp computed
  obtain rfl := Option.some.inj same
  exact IntType.convert_of_inRange ptrdiff.positive inRange

/-- An index below zero is never reached. -/
theorem not_visits_negative {last : VIteratorRnd T} (negative : last.i.val < 0) {values : List Int} :
    ¬ (loop last).Visits (range.iterator 0) values := by
  apply IteratorLoop.not_visits fun it => 0 ≤ it.i.val
  · intro it nonneg
    have apart : it.i.val ≠ last.i.val := by omega
    exact beq_eq_false_iff_ne.mpr apart
  · intro it next nonneg moved
    rw [increment_i moved]
    omega
  · exact Int.le_refl 0

/-- The loop yields the numbers of the range if and only if the end lies less than two steps before the
start. Otherwise it counts away from the last index. -/
theorem vrange_yields_iff {start last step : T.Value} (signed : T.signed = true)
    (positive : 0 < step.val) (noOverflow : ((vrange start last).step step).NoOverflow) :
    ((vrange start last).step step).Yields ↔ start.val - last.val < 2 * step.val := by
  constructor
  · rintro ⟨first, final, values, begins, ends, visits, -⟩
    by_contra far
    rw [begin_eq, Option.some.injEq] at begins
    rw [end_eq positive noOverflow, Option.some.injEq] at ends
    subst begins ends
    have below : ¬ -step.val < last.val + step.val - start.val := by omega
    rw [← tdiv_nonneg_iff positive, Int.not_le] at below
    exact not_visits_negative below visits
  · exact yields_numbers signed positive noOverflow

theorem vrange_yields_steps :
    ((vrange (⟨1, by decide⟩ : IntegerType.int.Value) ⟨9, by decide⟩).step ⟨3, by decide⟩).Yields :=
  (vrange_yields_iff rfl (by decide) ⟨by decide, by decide, by decide⟩).mpr (by decide)

/-- From 10 to 0 there is no number to yield, but the last index is -9. -/
theorem vrange_endless :
    let range := (vrange (⟨10, by decide⟩ : IntegerType.int.Value) ⟨0, by decide⟩).step ⟨1, by decide⟩
    range.NoOverflow ∧ range.end.map (fun it => it.i.val) = some (-9) ∧ ¬ range.Yields := by
  intro range
  have index : range.end.map (fun it => it.i.val) = some (-9) := by decide
  refine ⟨⟨by decide, by decide, by decide⟩, index, ?_⟩
  rintro ⟨first, last, values, begins, ends, visits, -⟩
  rw [ends, Option.map_some, Option.some.injEq] at index
  rw [begin_eq, Option.some.injEq] at begins
  subst begins
  exact not_visits_negative (by omega) visits

end VRange

end MartCommon.Experimental

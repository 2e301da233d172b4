import MartCommon.Library.Integral
import MartCommon.Library.IteratorLoop

namespace MartCommon.Common

open Library

/-- `IIterator<T>`. There is no `std::make_signed_t<bool>`, so `T` is an integer type. -/
structure IIterator (T : IntegerType) where
  i : T.Value
  deriving DecidableEq

namespace IIterator

variable {T : IntegerType}

/-- `difference_type` -/
abbrev DifferenceType (T : IntegerType) := T.makeSigned.Value

/-- `operator++()` -/
def increment (it : IIterator T) : Option (IIterator T) := (T.stored T (it.i + 1)).map IIterator.mk

/-- `operator==` -/
def eq (l r : IIterator T) : Bool := l.i.val == r.i.val

/-- `operator<` -/
def lt (l r : IIterator T) : Bool := l.i.val < r.i.val

/-- `operator+( IIterator l, difference_type n )`. The arithmetic converts `n` to its own type. -/
def add (l : IIterator T) (n : DifferenceType T) : Option (IIterator T) :=
  (T.stored T (l.i + T.promoted.convert n)).map IIterator.mk

/-- `operator-( IIterator l, IIterator r )` -/
def sub (l r : IIterator T) : Option (DifferenceType T) := T.stored T.makeSigned (l.i - r.i)

end IIterator

/-- `irange_t<T>` -/
structure IRange (T : IntegerType) where
  start : IIterator T
  pastEnd : IIterator T

/-- `irange( start, end )` -/
def irange {T : IntegerType} (start last : T.Value) : IRange T := ⟨⟨start⟩, ⟨last⟩⟩

namespace IRange

variable {T : IntegerType} (range : IRange T)

def begin : IIterator T := range.start

def «end» : IIterator T := range.pastEnd

/-- The loop `for( auto i : range )`. -/
def loop : IteratorLoop (IIterator T) Int where
  last it := it.eq range.end
  value it := some it.i
  next := IIterator.increment

/-- An iterator of the range, or the one behind it. -/
def Inside (it : IIterator T) : Prop := range.start.i.val ≤ it.i.val ∧ it.i.val ≤ range.pastEnd.i.val

/-- The numbers from the start up to the end, without the end. -/
def numbers : List Int :=
  (List.range (range.pastEnd.i.val - range.start.i.val).toNat).map fun k : Nat => range.start.i.val + (k : Int)

/-- The laws of a random access range. -/
structure Proper : Prop where
  visits : ∀ values, range.loop.Visits range.begin values ↔ values = range.numbers
  distance : ∃ n, range.end.sub range.begin = some n ∧ n.val = range.numbers.length
  differences : ∀ a b, range.Inside a → range.Inside b →
    ∃ n, b.sub a = some n ∧ (a.lt b = true ↔ 0 < n.val) ∧ a.add n = some b

end IRange

section Operators

variable {T : IntegerType}

/-- The value behind the increment is one larger where the type has it. -/
theorem increment_eq (it : IIterator T) (next : T.Value) (larger : it.i.val + 1 = next.val) :
    it.increment = some ⟨next⟩ := by
  have sum : T.stored T (it.i + 1) = some next := by
    apply T.stored_eq rfl next.property (by rw [larger])
    intro _
    rw [larger]
    exact T.promoted_inRange next.property
  rw [IIterator.increment, sum, Option.map_some]

/-- A difference is exact where its type has it. -/
theorem sub_eq (l r : IIterator T) (fits : T.makeSigned.InRange (l.i.val - r.i.val)) :
    l.sub r = some ⟨l.i.val - r.i.val, fits⟩ := by
  have bits : T.bits = T.makeSigned.bits := rfl
  apply T.stored_eq bits fits rfl
  intro signed
  rw [← T.promoted_makeSigned signed]
  exact T.makeSigned.promoted_inRange fits

/-- The sum of an iterator and a distance is exact where the type has it. -/
theorem add_eq (l : IIterator T) (n : IIterator.DifferenceType T) (sum : T.Value)
    (exact : l.i.val + n.val = sum.val) : l.add n = some ⟨sum⟩ := by
  have residue : T.promoted.convert n % 2 ^ T.bits = n.val % 2 ^ T.bits := by
    have divides : (2 : Int) ^ T.bits ∣ 2 ^ T.promoted.bits := by
      exact_mod_cast Nat.pow_dvd_pow 2 T.bits_le_promoted
    rw [← Int.emod_emod_of_dvd _ divides, IntType.convert_emod, Int.emod_emod_of_dvd _ divides]
  have added : T.stored T (l.i + T.promoted.convert n) = some sum := by
    apply T.stored_eq rfl sum.property
    · rw [Int.add_emod, residue, ← Int.add_emod, exact]
    · intro signed
      have whole : T.promoted.InRange n.val := by
        rw [← T.promoted_makeSigned signed]
        exact T.makeSigned.promoted_inRange n.property
      rw [IntType.convert_of_inRange T.positive_promoted whole, exact]
      exact T.promoted_inRange sum.property
  rw [IIterator.add, added, Option.map_some]

end Operators

namespace IRange

variable {T : IntegerType} {range : IRange T}

/-- The numbers from an iterator on are visited up to the end. -/
theorem visits_rest (count : Nat) (it : IIterator T) (reaches : it.i.val + count = range.pastEnd.i.val) :
    range.loop.Visits it ((List.range count).map fun k : Nat => it.i.val + (k : Int)) := by
  induction count generalizing it with
  | zero =>
      apply IteratorLoop.visits_last
      have same : it.i.val = range.pastEnd.i.val := by simpa using reaches
      exact beq_iff_eq.mpr same
  | succ count ih =>
      have apart : it.i.val ≠ range.pastEnd.i.val := by omega
      have more : range.loop.last it = false := beq_eq_false_iff_ne.mpr apart
      have inside : T.InRange (it.i.val + 1) := by
        obtain ⟨low, -⟩ := it.i.property
        obtain ⟨-, high⟩ := range.pastEnd.i.property
        constructor <;> omega
      have larger : it.i.val + 1 + count = range.pastEnd.i.val := by omega
      have visits := IteratorLoop.visits_next more rfl (increment_eq it ⟨_, inside⟩ rfl)
        (ih ⟨⟨it.i.val + 1, inside⟩⟩ larger)
      rw [List.range_succ_eq_map, List.map_cons, List.map_map]
      simpa [Function.comp_def, Int.add_assoc, Int.add_comm 1] using visits

/-- A range visits its numbers, whatever the type is. -/
theorem visits_numbers (ordered : range.start.i.val ≤ range.pastEnd.i.val) :
    range.loop.Visits range.begin range.numbers :=
  visits_rest _ range.start (by omega)

/-- The laws of a random access range hold if and only if the length of the range is a value of
`difference_type`. -/
theorem irange_proper_iff {start last : T.Value} (ordered : start.val ≤ last.val) :
    (irange start last).Proper ↔ last.val - start.val ≤ T.makeSigned.maxValue := by
  have length : ((irange start last).numbers.length : Int) = last.val - start.val := by
    simp only [IRange.numbers, List.length_map, List.length_range]
    exact Int.toNat_of_nonneg (by simp only [irange]; omega)
  constructor
  · intro proper
    obtain ⟨n, -, counted⟩ := proper.distance
    rw [← length, ← counted]
    exact n.property.2
  · intro fits
    have least := T.makeSigned.minValue_of_signed rfl
    have visits : (irange start last).loop.Visits (irange start last).begin
        (irange start last).numbers := visits_numbers ordered
    refine ⟨fun values => ⟨fun other => IteratorLoop.visits_unique other visits, fun same => ?_⟩, ?_, ?_⟩
    · exact same ▸ visits
    · have whole : T.makeSigned.InRange (last.val - start.val) := ⟨by omega, fits⟩
      exact ⟨_, sub_eq _ _ whole, length.symm⟩
    · intro a b insideA insideB
      have whole : T.makeSigned.InRange (b.i.val - a.i.val) := by
        obtain ⟨_, _⟩ := insideA
        obtain ⟨_, _⟩ := insideB
        simp only [irange] at *
        constructor <;> omega
      have sum : a.i.val + (b.i.val - a.i.val) = b.i.val := by omega
      refine ⟨_, sub_eq b a whole, ?_, add_eq a ⟨_, whole⟩ b.i sum⟩
      rw [IIterator.lt, decide_eq_true_eq]
      exact Int.sub_pos.symm

/-- The laws hold for the values from -50 to 50 of a signed type of eight bits. -/
theorem irange_proper_small :
    (irange (⟨-50, by decide⟩ : IntegerType.uint8.makeSigned.Value) ⟨51, by decide⟩).Proper :=
  (irange_proper_iff (by decide)).mpr (by decide)

/-- The numbers from 0 to 199 are visited, but their distance is -56. -/
theorem irange_distance_wraps :
    let range : IRange IntegerType.uint8 := irange ⟨0, by decide⟩ ⟨200, by decide⟩
    (range.end.sub range.begin).map Subtype.val = some (-56) ∧ ¬ range.Proper := by
  intro range
  have wrapped : (range.end.sub range.begin).map Subtype.val = some (-56) := by decide
  refine ⟨wrapped, fun proper => ?_⟩
  obtain ⟨n, distance, counted⟩ := proper.distance
  rw [distance, Option.map_some, Option.some.injEq] at wrapped
  omega

end IRange

end MartCommon.Common

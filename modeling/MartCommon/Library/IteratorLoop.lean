import Mathlib.Data.List.Basic

namespace MartCommon.Library

/-- A loop that visits the value of an iterator and increments it until it is the last one. -/
structure IteratorLoop (Iterator Value : Type*) where
  last : Iterator → Bool
  value : Iterator → Option Value
  next : Iterator → Option Iterator

namespace IteratorLoop

variable {Iterator Value : Type*} (loop : IteratorLoop Iterator Value)

/-- The visited values when at most so many increments are made. There is no result where a value or an
increment has none. -/
def traverse : Nat → Iterator → Option (List Value)
  | 0, iterator => if loop.last iterator then some [] else none
  | left + 1, iterator =>
      if loop.last iterator then some []
      else
        (loop.value iterator).bind fun value =>
          (loop.next iterator).bind fun next => (traverse left next).map (value :: ·)

/-- The loop ends after finitely many increments and has visited these values. -/
def Visits (iterator : Iterator) (values : List Value) : Prop :=
  ∃ left, loop.traverse left iterator = some values

variable {loop} {iterator next : Iterator} {value : Value} {values : List Value}

theorem visits_last (last : loop.last iterator = true) : loop.Visits iterator [] :=
  ⟨0, if_pos last⟩

theorem visits_next (more : loop.last iterator = false) (here : loop.value iterator = some value)
    (moved : loop.next iterator = some next) (rest : loop.Visits next values) :
    loop.Visits iterator (value :: values) := by
  obtain ⟨left, traversed⟩ := rest
  refine ⟨left + 1, ?_⟩
  rw [traverse, if_neg (by rw [more]; exact Bool.false_ne_true), here, Option.bind_some, moved,
    Option.bind_some, traversed, Option.map_some]

/-- A loop that ends visits one list of values. -/
theorem visits_unique {other : List Value} (visits : loop.Visits iterator values)
    (again : loop.Visits iterator other) : values = other := by
  obtain ⟨left, traversed⟩ := visits
  obtain ⟨more, repeated⟩ := again
  induction left generalizing iterator values other more with
  | zero =>
      rw [traverse, Option.ite_none_right_eq_some] at traversed
      obtain ⟨last, same⟩ := traversed
      cases more <;> rw [traverse, if_pos last] at repeated <;>
        exact Option.some.inj (same.symm.trans repeated)
  | succ left ih =>
      by_cases last : loop.last iterator = true
      · rw [traverse, if_pos last] at traversed
        cases more <;> rw [traverse, if_pos last] at repeated <;>
          exact Option.some.inj (traversed.symm.trans repeated)
      · cases more with
        | zero =>
            rw [traverse, if_neg last] at repeated
            contradiction
        | succ more =>
            simp only [traverse, if_neg last, Option.bind_eq_some_iff, Option.map_eq_some_iff]
              at traversed repeated
            obtain ⟨value, here, next, moved, rest, traversed, rfl⟩ := traversed
            obtain ⟨value', here', next', moved', rest', repeated, rfl⟩ := repeated
            obtain rfl : value = value' := Option.some.inj (here.symm.trans here')
            obtain rfl : next = next' := Option.some.inj (moved.symm.trans moved')
            rw [ih traversed more repeated]

/-- A loop visits the values of the iterators that its increments lead to, one after the other. -/
theorem visits_follow (iterators : Nat → Iterator) (visited : Nat → Value) (count : Nat)
    (ends : loop.last (iterators count) = true)
    (each : ∀ i < count, loop.last (iterators i) = false ∧
      loop.value (iterators i) = some (visited i) ∧
        loop.next (iterators i) = some (iterators (i + 1))) :
    loop.Visits (iterators 0) ((List.range count).map visited) := by
  induction count generalizing iterators visited with
  | zero => exact visits_last ends
  | succ count ih =>
      obtain ⟨more, here, moved⟩ := each 0 (Nat.zero_lt_succ count)
      have rest := ih (fun i => iterators (i + 1)) (fun i => visited (i + 1)) ends fun i before =>
        each (i + 1) (Nat.succ_lt_succ before)
      rw [List.range_succ_eq_map, List.map_cons, List.map_map]
      exact visits_next more here moved rest

/-- The rule of total correctness. A measure that each increment makes smaller bounds the increments, and
what the values have to do with their iterator is shown from the last iterator backwards. -/
theorem traverse_total (measure : Iterator → Nat) (Related : Iterator → List Value → Prop)
    (ends : ∀ iterator, loop.last iterator = true → Related iterator [])
    (each : ∀ iterator, loop.last iterator = false → ∃ value next,
      loop.value iterator = some value ∧ loop.next iterator = some next ∧
        measure next < measure iterator ∧
          ∀ rest, Related next rest → Related iterator (value :: rest))
    {left : Nat} (enough : measure iterator ≤ left) :
    ∃ values, loop.traverse left iterator = some values ∧ Related iterator values := by
  induction left generalizing iterator with
  | zero =>
      by_cases last : loop.last iterator = true
      · exact ⟨[], if_pos last, ends iterator last⟩
      · obtain ⟨_, next, -, -, smaller, -⟩ := each iterator (Bool.eq_false_iff.mpr last)
        omega
  | succ left ih =>
      by_cases last : loop.last iterator = true
      · exact ⟨[], if_pos last, ends iterator last⟩
      · obtain ⟨value, next, here, moved, smaller, related⟩ :=
          each iterator (Bool.eq_false_iff.mpr last)
        have fewer : measure next ≤ left := by omega
        obtain ⟨rest, traversed, follows⟩ := ih fewer
        refine ⟨value :: rest, ?_, related rest follows⟩
        rw [traverse, if_neg last, here, Option.bind_some, moved, Option.bind_some, traversed,
          Option.map_some]

/-- A loop that cannot reach its last iterator does not end. -/
theorem not_visits (inside : Iterator → Prop)
    (apart : ∀ iterator, inside iterator → loop.last iterator = false)
    (kept : ∀ iterator next, inside iterator → loop.next iterator = some next → inside next)
    (begins : inside iterator) : ¬ loop.Visits iterator values := by
  rintro ⟨left, traversed⟩
  induction left generalizing iterator values with
  | zero =>
      rw [traverse, apart iterator begins] at traversed
      contradiction
  | succ left ih =>
      rw [traverse, apart iterator begins, if_neg Bool.false_ne_true] at traversed
      obtain ⟨value, -, traversed⟩ := Option.bind_eq_some_iff.mp traversed
      obtain ⟨next, moved, traversed⟩ := Option.bind_eq_some_iff.mp traversed
      obtain ⟨rest, traversed, -⟩ := Option.map_eq_some_iff.mp traversed
      exact ih (kept iterator next begins moved) traversed

end IteratorLoop

end MartCommon.Library

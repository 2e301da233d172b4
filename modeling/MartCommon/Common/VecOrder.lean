import Mathlib.Order.PiLex
import MartCommon.Common.MartVec

namespace MartCommon.Common

open Library.CountedLoop

section Definitions

variable {T Result : Type*} {N : Nat}

/-- `operator==`, which goes on behind a difference. -/
def Vec.equals [DecidableEq T] (l r : Vec T N) : Option Bool :=
  loop 0 N (fun i ret =>
    (l.read i).bind fun left => (r.read i).map fun right => ret && decide (left = right)) true

variable [LT T] [DecidableLT T]

/-- One pass of both comparisons, which return values of their own. -/
def compareElements (less greater : Result) (l r : Vec T N) (i : Nat) : Option (Option Result) :=
  (l.read i).bind fun left => (r.read i).map fun right =>
    if left < right then some less else if left > right then some greater else none

def compareWith (less greater equal : Result) (l r : Vec T N) : Option Result :=
  (returning 0 N (compareElements less greater l r)).map fun found => found.getD equal

def lexicographicalCompare (l r : Vec T N) : Option Bool := compareWith true false false l r

def lexicographicalCompareThreeWay (l r : Vec T N) : Option Ordering :=
  compareWith .lt .gt .eq l r

end Definitions

section Order

variable {T Result : Type*} {N : Nat} [LinearOrder T] {l r : Vec T N}

theorem equals_eq (l r : Vec T N) : l.equals r = some (decide (l = r)) := by
  apply loop_follows (fun count => decide (∀ i : Fin N, i.val < count → l i = r i)) (Nat.zero_le N)
  · simp
  · simp [funext_iff]
  · intro i _ inside
    rw [l.read_inside inside, r.read_inside inside, Option.bind_some, Option.map_some,
      Option.some.injEq, ← Bool.decide_and, decide_eq_decide]
    constructor
    · rintro ⟨earlier, here⟩ j before
      rcases Nat.lt_succ_iff_lt_or_eq.mp before with before | same
      · exact earlier j before
      · rwa [show j = ⟨i, inside⟩ from Fin.ext same]
    · intro every
      exact ⟨fun j before => every j (Nat.lt_succ_of_lt before),
        every ⟨i, inside⟩ (Nat.lt_succ_self i)⟩

variable (less greater equal : Result)

theorem compareElements_inside (l r : Vec T N) (i : Fin N) :
    compareElements less greater l r i =
      some (if l i < r i then some less else if r i < l i then some greater else none) := by
  rw [compareElements, l.read_inside i.isLt, r.read_inside i.isLt]
  rfl

theorem compareElements_same (i : Fin N) (same : l i = r i) :
    compareElements less greater l r i = some none := by
  rw [compareElements_inside, same, if_neg (lt_irrefl _), if_neg (lt_irrefl _)]

theorem compareWith_self (l : Vec T N) : compareWith less greater equal l l = some equal := by
  have never : returning 0 N (compareElements less greater l l) = some none := by
    apply returning_never
    intro i _ inside
    exact compareElements_same less greater ⟨i, inside⟩ rfl
  rw [compareWith, never]
  rfl

/-- The first difference decides. -/
theorem compareWith_at {result : Result} (i : Fin N) (same : ∀ j, j < i → l j = r j)
    (here : compareElements less greater l r i = some (some result)) :
    compareWith less greater equal l r = some result := by
  have found : returning 0 N (compareElements less greater l r) = some (some result) := by
    apply returning_at (Nat.zero_le i) i.isLt _ here
    intro j _ before
    exact compareElements_same less greater ⟨j, before.trans i.isLt⟩ (same _ before)
  rw [compareWith, found]
  rfl

theorem compareWith_less (before : toLex l < toLex r) :
    compareWith less greater equal l r = some less := by
  obtain ⟨i, (same : ∀ j, j < i → l j = r j), (differs : l i < r i)⟩ := before
  apply compareWith_at less greater equal i same
  rw [compareElements_inside]
  exact congrArg some (if_pos differs)

theorem compareWith_greater (behind : toLex r < toLex l) :
    compareWith less greater equal l r = some greater := by
  obtain ⟨i, (same : ∀ j, j < i → r j = l j), (differs : r i < l i)⟩ := behind
  apply compareWith_at less greater equal i fun j earlier => (same j earlier).symm
  rw [compareElements_inside]
  exact congrArg some ((if_neg (lt_asymm differs)).trans (if_pos differs))

/-- The two-way comparison decides the lexicographic order of the vectors. -/
theorem lexicographicalCompare_iff :
    lexicographicalCompare l r = some true ↔ toLex l < toLex r := by
  refine ⟨fun returned => ?_, compareWith_less _ _ _⟩
  rcases lt_trichotomy (toLex l) (toLex r) with before | same | behind
  · exact before
  · rw [toLex.injective same, lexicographicalCompare, compareWith_self] at returned
    exact absurd returned (by decide)
  · rw [lexicographicalCompare, compareWith_greater _ _ _ behind] at returned
    exact absurd returned (by decide)

/-- `lexicographical_compare` is a strict total order whose third case is `==`, and the three-way
comparison tells the cases apart. -/
theorem lexicographicalCompare_total (T : Type*) [LinearOrder T] (N : Nat) :
    (∀ l : Vec T N, lexicographicalCompare l l = some false) ∧
    (∀ a b c : Vec T N, lexicographicalCompare a b = some true →
      lexicographicalCompare b c = some true → lexicographicalCompare a c = some true) ∧
    ∀ l r : Vec T N,
      (lexicographicalCompare l r = some true ∧ l.equals r = some false ∧
        lexicographicalCompare r l = some false ∧
        lexicographicalCompareThreeWay l r = some .lt) ∨
      (lexicographicalCompare l r = some false ∧ l.equals r = some true ∧
        lexicographicalCompare r l = some false ∧
        lexicographicalCompareThreeWay l r = some .eq) ∨
      (lexicographicalCompare l r = some false ∧ l.equals r = some false ∧
        lexicographicalCompare r l = some true ∧
        lexicographicalCompareThreeWay l r = some .gt) := by
  refine ⟨compareWith_self _ _ _, fun a b c first second => ?_, fun l r => ?_⟩
  · rw [lexicographicalCompare_iff] at first second ⊢
    exact first.trans second
  · rcases lt_trichotomy (toLex l) (toLex r) with before | same | behind
    · have other : l ≠ r := fun equal => before.ne (congrArg toLex equal)
      exact .inl ⟨compareWith_less _ _ _ before,
        (equals_eq l r).trans (congrArg some (decide_eq_false other)),
        compareWith_greater _ _ _ before, compareWith_less _ _ _ before⟩
    · have equal : l = r := toLex.injective same
      subst equal
      exact .inr (.inl ⟨compareWith_self _ _ _ l,
        (equals_eq l l).trans (congrArg some (decide_eq_true rfl)), compareWith_self _ _ _ l,
        compareWith_self _ _ _ l⟩)
    · have other : l ≠ r := fun equal => behind.ne (congrArg toLex equal.symm)
      exact .inr (.inr ⟨compareWith_greater _ _ _ behind,
        (equals_eq l r).trans (congrArg some (decide_eq_false other)),
        compareWith_less _ _ _ behind, compareWith_greater _ _ _ behind⟩)

theorem lexicographicalCompare_total_chain :
    lexicographicalCompare (![0, 1] : Vec Nat 2) ![2, 0] = some true :=
  (lexicographicalCompare_total Nat 2).2.1 ![0, 1] ![1, 0] ![2, 0] rfl rfl

end Order

end MartCommon.Common

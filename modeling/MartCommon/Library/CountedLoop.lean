import Mathlib.Algebra.BigOperators.Fin

namespace MartCommon.Library.CountedLoop

variable {State Value : Type*}

/-- The passes of a loop that counts up. A pass without a result ends the loop without one. -/
def passes (body : Nat → State → Option State) : Nat → Nat → State → Option State
  | 0, _, state => some state
  | left + 1, i, state => (body i state).bind (passes body left (i + 1))

/-- `for( int i = first; i < last; ++i )` with the variables it changes as its state. -/
def loop (first last : Nat) (body : Nat → State → Option State) (state : State) : Option State :=
  passes body (last - first) first state

variable {body : Nat → State → Option State} {first last : Nat}

theorem passes_follow (states : Nat → State) (left first : Nat)
    (step : ∀ i, first ≤ i → i < first + left → body i (states i) = some (states (i + 1))) :
    passes body left first (states first) = some (states (first + left)) := by
  induction left generalizing first with
  | zero => rfl
  | succ left ih =>
      rw [passes, step first le_rfl (Nat.lt_add_of_pos_right (Nat.zero_lt_succ left)),
        Option.bind_some, ih (first + 1) fun i reached before => step i (by omega) (by omega),
        Nat.add_assoc, Nat.add_comm 1 left]

/-- A loop runs through the states that its passes lead to, one after the other. -/
theorem loop_follows {start final : State} (states : Nat → State) (ordered : first ≤ last)
    (begins : states first = start) (ends : states last = final)
    (step : ∀ i, first ≤ i → i < last → body i (states i) = some (states (i + 1))) :
    loop first last body start = some final := by
  have followed := passes_follow states (last - first) first fun i reached before =>
    step i reached (by omega)
  rwa [Nat.add_sub_cancel' ordered, begins, ends] at followed

section Filled

variable {size : Nat} {target start : Fin size → Value} {count : Nat}

/-- An array whose first places hold their final values, while the others are unchanged. -/
def filled (target start : Fin size → Value) (count : Nat) : Fin size → Value :=
  fun i => if i.val < count then target i else start i

@[simp] theorem filled_zero : filled target start 0 = start := rfl

theorem filled_all (reached : size ≤ count) : filled target start count = target := by
  funext i
  exact if_pos (i.isLt.trans_le reached)

/-- Writing the next place fills one place more. -/
theorem update_filled (inside : count < size) :
    Function.update (filled target start count) ⟨count, inside⟩ (target ⟨count, inside⟩) =
      filled target start (count + 1) := by
  funext i
  by_cases here : i = ⟨count, inside⟩
  · subst here
    rw [Function.update_self, filled, if_pos (Nat.lt_succ_self count)]
  · have apart : i.val ≠ count := fun same => here (Fin.ext same)
    rw [Function.update_of_ne here, filled, filled]
    by_cases before : i.val < count
    · rw [if_pos before, if_pos (Nat.lt_succ_of_lt before)]
    · rw [if_neg before, if_neg (by omega)]

end Filled

section Summed

variable {Sum : Type*} [AddCommMonoid Sum] {size : Nat} {term : Fin size → Sum} {count : Nat}

/-- The sum of the first terms, in the order in which a loop adds them. -/
def summed (term : Fin size → Sum) (count : Nat) : Sum :=
  ∑ i ∈ Finset.range count, if inside : i < size then term ⟨i, inside⟩ else 0

@[simp] theorem summed_zero : summed term 0 = 0 := Finset.sum_range_zero _

theorem summed_succ (inside : count < size) :
    summed term (count + 1) = summed term count + term ⟨count, inside⟩ := by
  rw [summed, Finset.sum_range_succ, dif_pos inside, summed]

theorem summed_all : summed term size = ∑ i, term i := by
  rw [summed, Finset.sum_range]
  exact Finset.sum_congr rfl fun i _ => dif_pos i.isLt

end Summed

section Achieved

variable {Place : Type*} {Right : Place → State → Prop}

/-- A step with a result that makes some places right and leaves those right that already are. -/
def Achieves (Right : Place → State → Prop) (done : Place → Prop) (step : State → Option State) :
    Prop :=
  ∀ state, ∃ next, step state = some next ∧ ∀ place, done place ∨ Right place state → Right place next

theorem passes_achieves {done : Nat → Place → Prop} (left first : Nat)
    (each : ∀ i, first ≤ i → i < first + left → Achieves Right (done i) (body i)) :
    Achieves Right (fun place => ∃ i, first ≤ i ∧ i < first + left ∧ done i place)
      (passes body left first) := by
  induction left generalizing first with
  | zero =>
      refine fun state => ⟨state, rfl, fun place reached => ?_⟩
      rcases reached with ⟨i, behind, before, -⟩ | right
      · omega
      · exact right
  | succ left ih =>
      intro state
      obtain ⟨next, stepped, now⟩ := each first le_rfl (by omega) state
      obtain ⟨final, passed, later⟩ :=
        ih (first + 1) (fun i reached before => each i (by omega) (by omega)) next
      refine ⟨final, by rw [passes, stepped, Option.bind_some, passed], fun place reached => ?_⟩
      rcases reached with ⟨i, behind, before, done⟩ | right
      · -- The place is made right by this pass or by a later one.
        rcases behind.eq_or_lt with rfl | behind
        · exact later place (.inr (now place (.inl done)))
        · exact later place (.inl ⟨i, behind, by omega, done⟩)
      · exact later place (.inr (now place (.inr right)))

/-- A loop makes right what one of its passes does, so that nested loops are treated alike. -/
theorem loop_achieves {done : Nat → Place → Prop} (ordered : first ≤ last)
    (each : ∀ i, first ≤ i → i < last → Achieves Right (done i) (body i)) :
    Achieves Right (fun place => ∃ i, first ≤ i ∧ i < last ∧ done i place)
      (loop first last body) := by
  have passed := passes_achieves (last - first) first fun i reached before =>
    each i reached (by omega)
  rwa [Nat.add_sub_cancel' ordered] at passed

theorem achieves_bind {done later : Place → Prop} {step after : State → Option State}
    (now : Achieves Right done step) (next : Achieves Right later after) :
    Achieves Right (fun place => done place ∨ later place) fun state => (step state).bind after := by
  intro state
  obtain ⟨middle, stepped, kept⟩ := now state
  obtain ⟨final, ended, right⟩ := next middle
  refine ⟨final, ?_, fun place reached => ?_⟩
  · change (step state).bind after = some final
    rw [stepped, Option.bind_some, ended]
  rcases reached with (done | done) | before
  · exact right place (.inr (kept place (.inl done)))
  · exact right place (.inl done)
  · exact right place (.inr (kept place (.inr before)))

end Achieved

section Returning

variable {Result : Type*} {search : Nat → Option (Option Result)}

/-- The passes of a loop that looks something up. A pass that finds a result returns it. -/
def searches (search : Nat → Option (Option Result)) : Nat → Nat → Option (Option Result)
  | 0, _ => some none
  | left + 1, i => (search i).bind fun found =>
      found.elim (searches search left (i + 1)) fun result => some (some result)

/-- A loop that counts up and has `return` statements in it. -/
def returning (first last : Nat) (search : Nat → Option (Option Result)) : Option (Option Result) :=
  searches search (last - first) first

theorem searches_never {left first : Nat}
    (every : ∀ i, first ≤ i → i < first + left → search i = some none) :
    searches search left first = some none := by
  induction left generalizing first with
  | zero => rfl
  | succ left ih =>
      rw [searches, every first le_rfl (by omega)]
      exact ih fun i behind before => every i (by omega) (by omega)

theorem searches_at {left first i : Nat} {result : Result} (behind : first ≤ i)
    (before : i < first + left) (earlier : ∀ j, first ≤ j → j < i → search j = some none)
    (here : search i = some (some result)) :
    searches search left first = some (some result) := by
  induction left generalizing first with
  | zero => omega
  | succ left ih =>
      rw [searches]
      rcases behind.eq_or_lt with rfl | behind
      · rw [here]
        rfl
      · rw [earlier first le_rfl behind]
        exact ih behind (by omega) fun j reached => earlier j (by omega)

theorem returning_never (every : ∀ i, first ≤ i → i < last → search i = some none) :
    returning first last search = some none :=
  searches_never fun i behind before => every i behind (by omega)

/-- The result of the first pass that returns one. -/
theorem returning_at {i : Nat} {result : Result} (behind : first ≤ i) (before : i < last)
    (earlier : ∀ j, first ≤ j → j < i → search j = some none)
    (here : search i = some (some result)) :
    returning first last search = some (some result) :=
  searches_at behind (by omega) earlier here

end Returning

end MartCommon.Library.CountedLoop

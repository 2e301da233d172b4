import MartCommon.Library.LinearSearch

namespace MartCommon.Common.Algorithm

open Library LinearSearch

variable {T : Type*}

/-- `std::find_if( first, last, p )` in a container, whose iterators are positions -/
def findIf (rng : List T) (first last : Nat) (p : T → Bool) : Option Search :=
  search (fun it => rng[it]?.map p) (last - first) first

/-- `wrapped_find_if( c, start, p )` with the positions for which it has evaluated the predicate -/
def wrappedFindIf (rng : List T) (start : Nat) (p : T → Bool) : Option Search :=
  (findIf rng start rng.length p).bind fun first =>
    if first.position ≠ rng.length then some first
    else
      (findIf rng 0 start p).map fun second =>
        let tested := first.tested ++ second.tested
        if second.position ≠ start then ⟨second.position, tested⟩ else ⟨rng.length, tested⟩

/-- `EndAwareIterator` -/
structure EndAwareIterator where
  it : Nat
  isEnd : Bool
  deriving DecidableEq, Repr

/-- `EndAwareIterator( it, c )` -/
def EndAwareIterator.make (it : Nat) (rng : List T) : EndAwareIterator := ⟨it, it == rng.length⟩

/-- `wrapped_find_if_ex( c, start, p )` -/
def wrappedFindIfEx (rng : List T) (start : Nat) (p : T → Bool) : Option EndAwareIterator :=
  (wrappedFindIf rng start p).map fun found => .make found.position rng

/-- The positions from the start to the last one, and from the first one up to the start. -/
def cyclic (length start : Nat) : List Nat := List.range' start (length - start) ++ List.range' 0 start

def satisfies (rng : List T) (p : T → Bool) (it : Nat) : Bool := rng[it]?.any p

/-- The first position in the cyclic order is found, and no position is tested twice. -/
structure FindsCyclically (rng : List T) (start : Nat) (p : T → Bool) (found : Search) : Prop where
  first : found.position = ((cyclic rng.length start).find? (satisfies rng p)).getD rng.length
  missing : found.position = rng.length ↔ ∀ value ∈ rng, p value = false
  once : found.tested.Nodup

variable {rng : List T} {first last start : Nat} {p : T → Bool}

theorem findIf_eq (ordered : first ≤ last) (inside : last ≤ rng.length) :
    findIf rng first last p =
      some ⟨((List.range' first (last - first)).find? (satisfies rng p)).getD last,
        upTo (satisfies rng p) (List.range' first (last - first))⟩ := by
  have tests : ∀ i, first ≤ i → i < first + (last - first) → rng[i]?.map p = some (satisfies rng p i) := by
    intro i _ before
    have there : i < rng.length := by omega
    rw [satisfies, List.getElem?_eq_getElem there]
    rfl
  have found := search_eq tests
  rwa [Nat.add_sub_cancel' ordered] at found

theorem mem_cyclic (inside : start ≤ last) {it : Nat} : it ∈ cyclic last start ↔ it < last := by
  simp only [cyclic, List.mem_append, List.mem_range'_1]
  omega

theorem nodup_cyclic (length start : Nat) : (cyclic length start).Nodup := by
  rw [cyclic, List.nodup_append]
  refine ⟨List.nodup_range', List.nodup_range', ?_⟩
  intro back inBack front inFront
  rw [List.mem_range'_1] at inBack inFront
  omega

/-- The search goes through the cyclic order. -/
theorem wrappedFindIf_eq (inside : start ≤ rng.length) :
    wrappedFindIf rng start p =
      some ⟨((cyclic rng.length start).find? (satisfies rng p)).getD rng.length,
        upTo (satisfies rng p) (cyclic rng.length start)⟩ := by
  rw [wrappedFindIf, findIf_eq inside (Nat.le_refl _), Option.bind_some, cyclic, List.find?_append]
  cases back : (List.range' start (rng.length - start)).find? (satisfies rng p) with
  | some it =>
      have before : it < rng.length := by
        have member := List.mem_range'_1.mp (List.mem_of_find?_eq_some back)
        omega
      rw [upTo_append_of_some back]
      exact if_pos (Nat.ne_of_lt before)
  | none =>
      rw [upTo_append_of_none back, upTo_of_none back, Option.getD_none, if_neg (not_not.mpr rfl),
        findIf_eq (Nat.zero_le start) inside, Nat.sub_zero, Option.map_some, Option.none_or]
      cases front : (List.range' 0 start).find? (satisfies rng p) with
      | some it =>
          have before : it < start := by
            have member := List.mem_range'_1.mp (List.mem_of_find?_eq_some front)
            omega
          exact congrArg some (if_pos (Nat.ne_of_lt before))
      | none => exact congrArg some (if_neg (not_not.mpr rfl))

theorem find_cyclic_eq_none_iff (inside : start ≤ rng.length) :
    (cyclic rng.length start).find? (satisfies rng p) = none ↔ ∀ value ∈ rng, p value = false := by
  rw [List.find?_eq_none]
  constructor
  · intro missing value member
    obtain ⟨it, there, rfl⟩ := List.mem_iff_getElem.mp member
    have here := missing it ((mem_cyclic inside).mpr there)
    rw [satisfies, List.getElem?_eq_getElem there] at here
    exact Bool.not_eq_true _ ▸ here
  · intro missing it member
    have there := (mem_cyclic inside).mp member
    rw [satisfies, List.getElem?_eq_getElem there, Option.any_some, missing _ (List.getElem_mem there)]
    exact Bool.false_ne_true

/-- The first element from any position on is found, with all elements behind it and then those before. -/
theorem wrappedFindIf_finds (rng : List T) (start : Fin (rng.length + 1)) (p : T → Bool) :
    ∃ found, wrappedFindIf rng start p = some found ∧ FindsCyclically rng start p found ∧
      wrappedFindIfEx rng start p = some ⟨found.position, !rng.any p⟩ := by
  have inside : start.val ≤ rng.length := Nat.le_of_lt_succ start.isLt
  have ran := wrappedFindIf_eq (p := p) inside
  have missing : ((cyclic rng.length start).find? (satisfies rng p)).getD rng.length = rng.length ↔
      ∀ value ∈ rng, p value = false := by
    rw [← find_cyclic_eq_none_iff inside]
    cases found : (cyclic rng.length start).find? (satisfies rng p) with
    | none => exact iff_of_true rfl rfl
    | some it =>
        have before := (mem_cyclic inside).mp (List.mem_of_find?_eq_some found)
        exact iff_of_false (Nat.ne_of_lt before) nofun
  refine ⟨_, ran, ⟨rfl, missing, ?_⟩, ?_⟩
  · exact (nodup_cyclic _ _).sublist (upTo_begins _).sublist
  · rw [wrappedFindIfEx, ran, Option.map_some, EndAwareIterator.make]
    congr 2
    rw [Bool.eq_iff_iff, beq_iff_eq, missing]
    simp

end MartCommon.Common.Algorithm

import Mathlib.Data.List.Infix
import Mathlib.Data.List.Range

namespace MartCommon.Library.LinearSearch

/-- Where a search ends, and the positions that it has tested on its way. -/
structure Search where
  position : Nat
  tested : List Nat
  deriving DecidableEq, Repr

/-- So many positions are tested from the first one on, until a test succeeds. There is no result where
a test has none. -/
def search (test : Nat → Option Bool) : Nat → Nat → Option Search
  | 0, first => some ⟨first, []⟩
  | left + 1, first =>
      (test first).bind fun found =>
        if found then some ⟨first, [first]⟩
        else (search test left (first + 1)).map fun later => ⟨later.position, first :: later.tested⟩

/-- The elements of a list up to the first one with a property -/
def upTo {Element : Type*} (property : Element → Bool) : List Element → List Element
  | [] => []
  | element :: rest => if property element then [element] else element :: upTo property rest

variable {Element : Type*} {property : Element → Bool} {front back : List Element}

theorem upTo_begins (list : List Element) : upTo property list <+: list := by
  induction list with
  | nil => exact List.prefix_rfl
  | cons element rest ih =>
      unfold upTo
      split
      · exact (List.cons_prefix_cons).mpr ⟨rfl, List.nil_prefix⟩
      · exact (List.cons_prefix_cons).mpr ⟨rfl, ih⟩

/-- What comes behind an element with the property does not matter. -/
theorem upTo_append_of_some {element : Element} (found : front.find? property = some element) :
    upTo property (front ++ back) = upTo property front := by
  induction front with
  | nil => contradiction
  | cons first rest ih =>
      rw [List.cons_append, upTo, upTo]
      by_cases here : property first = true
      · rw [if_pos here, if_pos here]
      · rw [if_neg here, if_neg here]
        rw [List.find?_cons_of_neg here] at found
        rw [ih found]

theorem upTo_append_of_none (missing : front.find? property = none) :
    upTo property (front ++ back) = front ++ upTo property back := by
  induction front with
  | nil => rfl
  | cons first rest ih =>
      have here : ¬ property first = true := List.find?_eq_none.mp missing first List.mem_cons_self
      rw [List.find?_cons_of_neg here] at missing
      rw [List.cons_append, upTo, if_neg here, ih missing, List.cons_append]

/-- The elements are all there where none has the property. -/
theorem upTo_of_none (missing : front.find? property = none) : upTo property front = front := by
  have whole : upTo property (front ++ []) = front ++ upTo property [] := upTo_append_of_none missing
  rwa [List.append_nil, upTo, List.append_nil] at whole

/-- The search ends at the first position with the property, or behind all of them. -/
theorem search_eq {test : Nat → Option Bool} {property : Nat → Bool} {left first : Nat}
    (tests : ∀ i, first ≤ i → i < first + left → test i = some (property i)) :
    search test left first =
      some ⟨((List.range' first left).find? property).getD (first + left),
        upTo property (List.range' first left)⟩ := by
  induction left generalizing first with
  | zero => rfl
  | succ left ih =>
      have here := tests first (Nat.le_refl _) (by omega)
      have later := @ih (first + 1) fun i behind before => tests i (by omega) (by omega)
      rw [search, here, Option.bind_some, List.range'_succ, upTo]
      by_cases found : property first = true
      · rw [if_pos found, if_pos found, List.find?_cons_of_pos found, Option.getD_some]
      · rw [if_neg found, if_neg found, List.find?_cons_of_neg found, later, Option.map_some]
        rw [Nat.add_assoc, Nat.add_comm 1 left]

end MartCommon.Library.LinearSearch

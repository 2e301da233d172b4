import Mathlib.Data.Nat.ModEq
import Mathlib.Logic.Function.Basic

namespace MartCommon.Library.Ring

variable {Value : Type*} {size : Nat}

/-- The place that lies an offset behind the first place of a ring. -/
def place (positive : 0 < size) (first offset : Nat) : Fin size :=
  ⟨(first + offset) % size, Nat.mod_lt _ positive⟩

variable {positive : 0 < size} {ring : Fin size → Value} {first : Nat} {stored : List Value}
  {value : Value}

/-- Offsets below the size lead to different places. -/
theorem place_injective {i j : Nat} (small : i < size) (smaller : j < size)
    (same : place positive first i = place positive first j) : i = j := by
  have residues : first + i ≡ first + j [MOD size] := congrArg Fin.val same
  have offsets := Nat.ModEq.add_left_cancel' first residues
  exact Nat.ModEq.eq_of_lt_of_lt offsets small smaller

theorem place_add (distance offset : Nat) :
    place positive (first + distance) offset = place positive first (distance + offset) := by
  rw [place, place, Fin.mk.injEq, Nat.add_assoc]

/-- From its first place on a ring holds the stored values, oldest first. -/
def Holds (positive : 0 < size) (ring : Fin size → Value) (first : Nat) (stored : List Value) : Prop :=
  ∀ (i : Nat) (inside : i < stored.length), ring (place positive first i) = stored[i]

theorem holds_nil : Holds positive ring first [] := by
  intro i inside
  contradiction

/-- Writing behind the stored values adds one, as long as there is room. -/
theorem Holds.push (holds : Holds positive ring first stored) (room : stored.length < size) :
    Holds positive (Function.update ring (place positive first stored.length) value) first
      (stored ++ [value]) := by
  intro i inside
  rw [List.length_append, List.length_singleton] at inside
  by_cases last : i = stored.length
  · subst last
    rw [Function.update_self, List.getElem_concat_length rfl]
  · have earlier : i < stored.length := by omega
    have apart : place positive first i ≠ place positive first stored.length :=
      fun same => last (place_injective (by omega) room same)
    rw [Function.update_of_ne apart, List.getElem_append_left earlier]
    exact holds i earlier

theorem Holds.head (holds : Holds positive ring first (value :: stored)) :
    ring (place positive first 0) = value :=
  holds 0 (Nat.zero_lt_succ _)

/-- Going past the oldest value takes it away, whatever is written to its place. -/
theorem Holds.pop {left : Value} (holds : Holds positive ring first (value :: stored))
    (room : stored.length < size) :
    Holds positive (Function.update ring (place positive first 0) left) (first + 1) stored := by
  intro i inside
  have apart : place positive first (i + 1) ≠ place positive first 0 := by
    intro same
    exact absurd (place_injective (by omega) (by omega) same) (Nat.succ_ne_zero i)
  rw [place_add, Nat.add_comm, Function.update_of_ne apart]
  exact holds (i + 1) (Nat.succ_lt_succ inside)

end MartCommon.Library.Ring

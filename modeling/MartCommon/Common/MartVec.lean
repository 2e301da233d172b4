import Mathlib.Algebra.BigOperators.Pi
import Mathlib.Algebra.Module.Pi
import MartCommon.Library.CountedLoop

namespace MartCommon.Common

open Library.CountedLoop

section Definitions

variable {T U : Type*} {N N1 N2 : Nat}

/-- `Vec<T, N>`. Its specialisations with two and with three members differ in the layout only. -/
abbrev Vec (T : Type*) (N : Nat) := Fin N → T

/-- Each vector is a row. -/
abbrev Matrix (T : Type*) (N1 N2 : Nat) := Vec (Vec T N2) N1

/-- `operator[]` for reading. There is no element outside the vector. -/
def Vec.read (vec : Vec T N) (idx : Nat) : Option T :=
  if inside : idx < N then some (vec ⟨idx, inside⟩) else none

/-- An assignment through `operator[]`. -/
def Vec.write (vec : Vec T N) (idx : Nat) (value : T) : Option (Vec T N) :=
  if inside : idx < N then some (Function.update vec ⟨idx, inside⟩ value) else none

/-- `mx[r][c]` -/
def Matrix.entry (mx : Matrix T N1 N2) (r c : Nat) : Option T :=
  (Vec.read mx r).bind fun row => row.read c

/-- `mx[r][c] = value` -/
def Matrix.setEntry (mx : Matrix T N1 N2) (r c : Nat) (value : T) : Option (Matrix T N1 N2) :=
  (Vec.read mx r).bind fun row => (row.write c value).bind (Vec.write mx r)

-- The elements on the right are numbers, or rows that are multiplied member by member.
variable [Zero U] [Add U] [SMul T U]

def innerProduct (l : Vec T N) (r : Vec U N) : Option U :=
  loop 0 N (fun i ret =>
    (l.read i).bind fun left => (r.read i).bind fun right => some (ret + left • right)) 0

/-- The product with a vector, and with a matrix as a vector of rows. -/
def mxMultiply (mx : Matrix T N1 N2) (vec : Vec U N2) : Option (Vec U N1) :=
  loop 0 N1 (fun i ret =>
    (Vec.read mx i).bind fun row => (innerProduct row vec).bind (ret.write i)) 0

def eye [Zero T] (N : Nat) (v : T) : Option (Matrix T N N) :=
  loop 0 N (fun i r => Matrix.setEntry r i i v) 0

end Definitions

section Access

variable {T : Type*} {N N1 N2 : Nat}

theorem Vec.read_inside (vec : Vec T N) {idx : Nat} (inside : idx < N) :
    vec.read idx = some (vec ⟨idx, inside⟩) := dif_pos inside

theorem Vec.write_inside (vec : Vec T N) (value : T) {idx : Nat} (inside : idx < N) :
    vec.write idx value = some (Function.update vec ⟨idx, inside⟩ value) := dif_pos inside

theorem Matrix.entry_inside (mx : Matrix T N1 N2) {r c : Nat} (row : r < N1) (column : c < N2) :
    mx.entry r c = some (mx ⟨r, row⟩ ⟨c, column⟩) := by
  rw [Matrix.entry, Vec.read_inside mx row, Option.bind_some, Vec.read_inside _ column]

theorem Matrix.setEntry_inside (mx : Matrix T N1 N2) (value : T) {r c : Nat} (row : r < N1)
    (column : c < N2) :
    mx.setEntry r c value = some (Function.update mx ⟨r, row⟩
      (Function.update (mx ⟨r, row⟩) ⟨c, column⟩ value)) := by
  rw [Matrix.setEntry, Vec.read_inside mx row, Option.bind_some, Vec.write_inside _ value column,
    Option.bind_some, Vec.write_inside mx _ row]

/-- The assignment of an entry that a matrix is to have makes this place right. -/
theorem setEntry_achieves (target : Matrix T N1 N2) {value : Option T} {r c : Nat} (row : r < N1)
    (column : c < N2) (computed : value = some (target ⟨r, row⟩ ⟨c, column⟩)) :
    Achieves (fun (place : Fin N1 × Fin N2) ret => ret place.1 place.2 = target place.1 place.2)
      (fun place => place.1 = r ∧ place.2 = c)
      fun ret => value.bind (Matrix.setEntry ret r c) := by
  intro ret
  refine ⟨_, by rw [computed]; exact Matrix.setEntry_inside ret _ row column, fun place reached => ?_⟩
  rcases place with ⟨i, j⟩
  by_cases here : i = ⟨r, row⟩
  · subst here
    by_cases there : j = ⟨c, column⟩
    · subst there
      simp
    · have apart : j.val ≠ c := fun same => there (Fin.ext same)
      simpa [there, apart] using reached
  · have apart : i.val ≠ r := fun same => here (Fin.ext same)
    simpa [here, apart] using reached

/-- A loop that writes each element once leaves the vector of the written values. -/
theorem loop_writes (value : Nat → Option T) (target start : Vec T N)
    (computed : ∀ i : Fin N, value i = some (target i)) :
    loop 0 N (fun i ret => (value i).bind (Vec.write ret i)) start = some target := by
  refine loop_follows (filled target start) (Nat.zero_le N) filled_zero (filled_all le_rfl)
    fun i _ inside => ?_
  rw [computed ⟨i, inside⟩, Option.bind_some, Vec.write_inside _ _ inside, update_filled inside]

end Access

section Products

variable {T U : Type*} {N N1 N2 : Nat} [AddCommMonoid U] [SMul T U]

theorem innerProduct_eq (l : Vec T N) (r : Vec U N) :
    innerProduct l r = some (∑ i, l i • r i) := by
  refine loop_follows (summed fun i => l i • r i) (Nat.zero_le N) summed_zero summed_all
    fun i _ inside => ?_
  rw [l.read_inside inside, r.read_inside inside, Option.bind_some, Option.bind_some,
    summed_succ inside]

theorem mxMultiply_eq (mx : Matrix T N1 N2) (vec : Vec U N2) :
    mxMultiply mx vec = some fun i => ∑ k, mx i k • vec k := by
  have written := loop_writes (fun i => (Vec.read mx i).bind fun row => innerProduct row vec)
    (fun i => ∑ k, mx i k • vec k) 0 fun i => by
      rw [Vec.read_inside mx i.isLt, Option.bind_some, innerProduct_eq]
  simpa only [mxMultiply, Option.bind_assoc] using written

theorem eye_eq [Zero T] (v : T) : eye N v = some fun r => Pi.single r v := by
  refine loop_follows (filled (fun r => Pi.single r v) 0) (Nat.zero_le N) filled_zero
    (filled_all le_rfl) fun i _ inside => ?_
  -- The row of the next pass is still zero.
  have blank : filled (fun r => Pi.single r v) (0 : Matrix T N N) i ⟨i, inside⟩ = 0 :=
    if_neg (lt_irrefl i)
  rw [Matrix.setEntry_inside _ v inside inside, blank, ← update_filled inside]
  rfl

end Products

end MartCommon.Common

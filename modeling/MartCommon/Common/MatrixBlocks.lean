import Mathlib.Data.Fin.Tuple.Basic
import MartCommon.Common.MatrixProduct

namespace MartCommon.Common

open Library.CountedLoop

section Definitions

variable {T : Type*} {M M1 M2 N N1 N2 : Nat}

/-- The elements of both vectors as one list of initialisers. -/
def concat (v1 : Vec T N1) (v2 : Vec T N2) : Vec T (N1 + N2) :=
  fun i => (List.ofFn v1 ++ List.ofFn v2).get (i.cast (by simp))

/-- `mx[r][c]` with indices that are computed as `int`. -/
def Matrix.entryAt (mx : Matrix T N1 N2) (r c : Int) : Option T :=
  if 0 ≤ r ∧ 0 ≤ c then mx.entry r.toNat c.toNat else none

/-- There is no result where an assertion fails. -/
def submatrix [Zero T] (M_R N_R : Nat) (mat : Matrix T M N) (m n : Int) :
    Option (Matrix T M_R N_R) :=
  if M_R + m ≤ M ∧ N_R + n ≤ N then
    loop 0 M_R (fun i ret =>
      loop 0 N_R (fun j ret => (mat.entryAt (i + m) (j + n)).bind (Matrix.setEntry ret i j)) ret) 0
  else none

/-- The entries of `ret` have no initial values, they are what `ret` holds at first. -/
def horzcat (ret : Matrix T M (N1 + N2)) (m1 : Matrix T M N1) (m2 : Matrix T M N2) :
    Option (Matrix T M (N1 + N2)) :=
  (loop 0 M (fun m ret =>
    loop 0 N1 (fun n ret => (m1.entry m n).bind (Matrix.setEntry ret m n)) ret) ret).bind
  (loop 0 M (fun m ret =>
    loop 0 N2 (fun n ret => (m2.entry m n).bind (Matrix.setEntry ret m (n + N1))) ret))

def vertcat (m1 : Matrix T M1 N) (m2 : Matrix T M2 N) : Matrix T (M1 + M2) N := concat m1 m2

end Definitions

section Values

variable {T : Type*} {M M_R N N_R N1 N2 : Nat}

/-- The offset of the second part stands on the right in the source. -/
theorem append_offset {U : Type*} (u : Vec U N1) (v : Vec U N2) (n : Fin N2)
    (place : n + N1 < N1 + N2) : Fin.append u v ⟨n + N1, place⟩ = v n := by
  rw [← Fin.append_right u v n]
  exact congrArg (Fin.append u v) (Fin.ext (Nat.add_comm n N1))

theorem concat_eq (v1 : Vec T N1) (v2 : Vec T N2) : concat v1 v2 = Fin.append v1 v2 := by
  funext i
  rw [concat, List.get_of_eq (List.ofFn_fin_append v1 v2).symm, List.get_ofFn]
  rfl

/-- A block that fits is read without an access outside the matrix. -/
theorem submatrix_eq [Zero T] (mat : Matrix T M N) (block : Matrix T M_R N_R) {m n : Nat}
    (rows : M_R + m ≤ M) (columns : N_R + n ≤ N)
    (inside : ∀ i j, block i j = mat ⟨i + m, by omega⟩ ⟨j + n, by omega⟩) :
    submatrix M_R N_R mat m n = some block := by
  have written := loop_achieves (Nat.zero_le M_R) fun i _ (row : i < M_R) =>
    loop_achieves (Nat.zero_le N_R) fun j _ (column : j < N_R) => by
      have value : mat.entryAt (i + m) (j + n) = some (block ⟨i, row⟩ ⟨j, column⟩) := by
        rw [Matrix.entryAt, if_pos (by omega), inside]
        exact mat.entry_inside (by omega) (by omega)
      exact setEntry_achieves block row column value
  obtain ⟨ret, ended, right⟩ := written 0
  have every : ret = block := by
    funext i j
    apply right (i, j)
    exact .inl ⟨i, Nat.zero_le _, i.isLt, j, Nat.zero_le _, j.isLt, rfl, rfl⟩
  rw [submatrix, if_pos (by omega), ended, every]

/-- Both loops together write every entry, whatever the matrix holds before. -/
theorem horzcat_eq (ret : Matrix T M (N1 + N2)) (m1 : Matrix T M N1) (m2 : Matrix T M N2) :
    horzcat ret m1 m2 = some fun m => Fin.append (m1 m) (m2 m) := by
  have left := loop_achieves (Nat.zero_le M) fun m _ (row : m < M) =>
    loop_achieves (Nat.zero_le N1) fun n _ (column : n < N1) =>
      setEntry_achieves (fun m => Fin.append (m1 m) (m2 m)) row (Nat.lt_add_right N2 column)
        ((m1.entry_inside row column).trans
          (congrArg some (Fin.append_left (m1 ⟨m, row⟩) (m2 ⟨m, row⟩) ⟨n, column⟩).symm))
  have right := loop_achieves (Nat.zero_le M) fun m _ (row : m < M) =>
    loop_achieves (Nat.zero_le N2) fun n _ (column : n < N2) => by
      have place : n + N1 < N1 + N2 := by omega
      have stored := append_offset (m1 ⟨m, row⟩) (m2 ⟨m, row⟩) ⟨n, column⟩ place
      exact setEntry_achieves (fun m => Fin.append (m1 m) (m2 m)) row place
        ((m2.entry_inside row column).trans (congrArg some stored.symm))
  obtain ⟨final, ended, written⟩ := achieves_bind left right ret
  have every : final = fun m => Fin.append (m1 m) (m2 m) := by
    funext m n
    apply written (m, n)
    rcases Nat.lt_or_ge n N1 with before | behind
    · exact .inl (.inl ⟨m, Nat.zero_le _, m.isLt, n, Nat.zero_le _, before, rfl, rfl⟩)
    · exact .inl (.inr ⟨m, Nat.zero_le _, m.isLt, n - N1, Nat.zero_le _, by omega, rfl,
        show n.val = n - N1 + N1 by omega⟩)
  rw [← every]
  exact ended

end Values

section Blocks

variable {T : Type*} [CommRing T] {M N1 N2 P : Nat}

theorem horzcat_mxMultiply_vertcat (A : Matrix T M N1) (B : Matrix T M N2) (C : Matrix T N1 P)
    (D : Matrix T N2 P) :
    ∃ AC BD, mxMultiply A C = some AC ∧ mxMultiply B D = some BD ∧
      mxMultiply (fun m => Fin.append (A m) (B m)) (vertcat C D) = some (AC + BD) := by
  refine ⟨_, _, mxMultiply_eq A C, mxMultiply_eq B D, ?_⟩
  rw [mxMultiply_eq, Option.some.injEq, vertcat, concat_eq]
  funext m
  rw [Fin.sum_univ_add]
  simp only [Fin.append_left, Fin.append_right]
  rfl

theorem transpose_horzcat (A : Matrix T M N1) (B : Matrix T M N2) :
    ∃ At Bt, transpose A = some At ∧ transpose B = some Bt ∧
      transpose (fun m => Fin.append (A m) (B m)) = some (vertcat At Bt) := by
  refine ⟨_, _, transpose_eq A, transpose_eq B, ?_⟩
  rw [transpose_eq, Option.some.injEq, vertcat, concat_eq]
  funext n m
  induction n using Fin.addCases with
  | left n => rw [Fin.append_left, Fin.append_left]
  | right n => rw [Fin.append_right, Fin.append_right]

theorem submatrix_horzcat (A : Matrix T M N1) (B : Matrix T M N2) :
    submatrix M N1 (fun m => Fin.append (A m) (B m)) 0 0 = some A ∧
      submatrix M N2 (fun m => Fin.append (A m) (B m)) 0 N1 = some B := by
  constructor
  · apply submatrix_eq _ A (m := 0) (n := 0) (by omega) (by omega)
    intro i j
    exact (Fin.append_left (A i) (B i) j).symm
  · apply submatrix_eq _ B (m := 0) (n := N1) (by omega) (by omega)
    intro i j
    exact (append_offset (A i) (B i) j _).symm

theorem submatrix_vertcat (C : Matrix T N1 P) (D : Matrix T N2 P) :
    submatrix N1 P (vertcat C D) 0 0 = some C ∧ submatrix N2 P (vertcat C D) N1 0 = some D := by
  rw [vertcat, concat_eq]
  constructor
  · apply submatrix_eq _ C (m := 0) (n := 0) (by omega) (by omega)
    intro i j
    exact congrFun (Fin.append_left C D i).symm j
  · apply submatrix_eq _ D (m := N1) (n := 0) (by omega) (by omega)
    intro i j
    exact congrFun (append_offset C D i _).symm j

/-- Products, transposes and blocks of matrices that are joined. No access is out of bounds, and
no assertion fails. -/
theorem joined_matrices (ret : Matrix T M (N1 + N2)) (A : Matrix T M N1) (B : Matrix T M N2)
    (C : Matrix T N1 P) (D : Matrix T N2 P) :
    ∃ AB, horzcat ret A B = some AB ∧
      (∃ AC BD, mxMultiply A C = some AC ∧ mxMultiply B D = some BD ∧
        mxMultiply AB (vertcat C D) = some (AC + BD)) ∧
      (∃ At Bt, transpose A = some At ∧ transpose B = some Bt ∧
        transpose AB = some (vertcat At Bt)) ∧
      (submatrix M N1 AB 0 0 = some A ∧ submatrix M N2 AB 0 N1 = some B) ∧
      submatrix N1 P (vertcat C D) 0 0 = some C ∧ submatrix N2 P (vertcat C D) N1 0 = some D :=
  ⟨_, horzcat_eq ret A B, horzcat_mxMultiply_vertcat A B C D, transpose_horzcat A B,
    submatrix_horzcat A B, submatrix_vertcat C D⟩

end Blocks

end MartCommon.Common

import Mathlib.Algebra.Module.BigOperators
import MartCommon.Common.MartVec

namespace MartCommon.Common

open Library.CountedLoop

variable {T : Type*} {M N K L : Nat}

def transpose [Zero T] (m : Matrix T M N) : Option (Matrix T N M) :=
  loop 0 M (fun r ret =>
    loop 0 N (fun c ret => (m.entry r c).bind (Matrix.setEntry ret c r)) ret) 0

theorem transpose_eq [Zero T] (m : Matrix T M N) : transpose m = some fun c r => m r c := by
  have written := loop_achieves (Nat.zero_le M) fun r _ (row : r < M) =>
    loop_achieves (Nat.zero_le N) fun c _ (column : c < N) =>
      setEntry_achieves (fun c r => m r c) column row (m.entry_inside row column)
  obtain ⟨ret, ended, right⟩ := written 0
  have every : ret = fun c r => m r c := by
    funext c r
    apply right (c, r)
    exact .inl ⟨r, Nat.zero_le _, r.isLt, c, Nat.zero_le _, c.isLt, rfl, rfl⟩
  rw [transpose, ended, every]

variable [CommRing T]

/-- A product with a product, for elements that are numbers or rows. -/
theorem mxMultiply_assoc {U : Type*} [AddCommGroup U] [Module T U] (A : Matrix T M N)
    (B : Matrix T N K) (v : Vec U K) :
    ∃ AB Bv ABv, mxMultiply A B = some AB ∧ mxMultiply B v = some Bv ∧
      mxMultiply AB v = some ABv ∧ mxMultiply A Bv = some ABv := by
  refine ⟨_, _, _, mxMultiply_eq A B, mxMultiply_eq B v, ?_, mxMultiply_eq A _⟩
  rw [mxMultiply_eq, Option.some.injEq]
  funext i
  calc ∑ k, (∑ j, A i j • B j) k • v k
      = ∑ k, ∑ j, (A i j * B j k) • v k := by
        apply Finset.sum_congr rfl
        intro k _
        rw [Finset.sum_apply, Finset.sum_smul]
        rfl
    _ = ∑ j, ∑ k, (A i j * B j k) • v k := Finset.sum_comm
    _ = ∑ j, A i j • ∑ k, B j k • v k := by
        apply Finset.sum_congr rfl
        intro j _
        rw [Finset.smul_sum]
        simp only [mul_smul]

theorem eye_mxMultiply (A : Matrix T M N) :
    ∃ identity, eye M 1 = some identity ∧ mxMultiply identity A = some A := by
  refine ⟨_, eye_eq 1, ?_⟩
  rw [mxMultiply_eq, Option.some.injEq]
  funext i
  simp only [Pi.single_apply, ite_smul, one_smul, zero_smul]
  exact Finset.sum_ite_eq' _ i _ |>.trans (if_pos (Finset.mem_univ i))

theorem mxMultiply_eye (A : Matrix T M N) :
    ∃ identity, eye N 1 = some identity ∧ mxMultiply A identity = some A := by
  refine ⟨_, eye_eq 1, ?_⟩
  rw [mxMultiply_eq, Option.some.injEq]
  funext i j
  rw [Finset.sum_apply]
  simp [Pi.single_apply]

theorem transpose_mxMultiply (A : Matrix T M N) (B : Matrix T N K) :
    ∃ AB At Bt product, mxMultiply A B = some AB ∧ transpose A = some At ∧
      transpose B = some Bt ∧ transpose AB = some product ∧ mxMultiply Bt At = some product := by
  refine ⟨_, _, _, _, mxMultiply_eq A B, transpose_eq A, transpose_eq B, transpose_eq _, ?_⟩
  rw [mxMultiply_eq, Option.some.injEq]
  funext c r
  rw [Finset.sum_apply, Finset.sum_apply]
  apply Finset.sum_congr rfl
  intro k _
  exact mul_comm (B k c) (A r k)

/-- `mx_multiply` is the matrix product, for vectors and for matrices. No access is out of
bounds. -/
theorem mxMultiply_laws (A : Matrix T M N) (B : Matrix T N K) (v : Vec T K) (V : Matrix T K L) :
    (∃ AB Bv ABv, mxMultiply A B = some AB ∧ mxMultiply B v = some Bv ∧
      mxMultiply AB v = some ABv ∧ mxMultiply A Bv = some ABv) ∧
    (∃ AB BV ABV, mxMultiply A B = some AB ∧ mxMultiply B V = some BV ∧
      mxMultiply AB V = some ABV ∧ mxMultiply A BV = some ABV) ∧
    (∃ identity, eye M 1 = some identity ∧ mxMultiply identity A = some A) ∧
    (∃ identity, eye N 1 = some identity ∧ mxMultiply A identity = some A) ∧
    ∃ AB At Bt product, mxMultiply A B = some AB ∧ transpose A = some At ∧
      transpose B = some Bt ∧ transpose AB = some product ∧ mxMultiply Bt At = some product :=
  ⟨mxMultiply_assoc A B v, mxMultiply_assoc A B V, eye_mxMultiply A, mxMultiply_eye A,
    transpose_mxMultiply A B⟩

end MartCommon.Common

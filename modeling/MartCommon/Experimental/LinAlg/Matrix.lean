import Mathlib.LinearAlgebra.Matrix.NonsingularInverse
import MartCommon.Common.MartVec

namespace MartCommon.Experimental.LinAlg

open Common (mxMultiply mxMultiply_eq eye eye_eq)
open Library.CountedLoop

variable {T : Type*} {n : Nat}

/-- A pass of the inner loops of `getCfactor`. The counter `j` goes on for a copied column only. -/
def copyColumn (M : Common.Matrix T (n + 1) (n + 1)) (q r target c : Nat)
    (state : Common.Matrix T n n × Nat) : Option (Common.Matrix T n n × Nat) :=
  if c ≠ q then
    (M.entry r c).bind fun value =>
      (Common.Matrix.setEntry state.1 target state.2 value).map fun t => (t, state.2 + 1)
  else some state

def copyRow (M : Common.Matrix T (n + 1) (n + 1)) (q r target : Nat) (t : Common.Matrix T n n) :
    Option (Common.Matrix T n n) :=
  (loop 0 (n + 1) (copyColumn M q r target) (t, 0)).map Prod.fst

def getCfactor [Zero T] (M : Common.Matrix T (n + 1) (n + 1)) (p q : Nat) :
    Option (Common.Matrix T n n) :=
  (loop 0 p (fun r t => copyRow M q r r t) 0).bind
    (loop (p + 1) (n + 1) fun r t => copyRow M q r (r - 1) t)

section Minors

/-- The number of rows or columns before `c` that are copied when `q` is left out. -/
def copied (q c : Nat) : Nat := if c ≤ q then c else c - 1

/-- What is copied goes to the place that is counted to. -/
theorem succAbove_copied {q : Fin (n + 1)} {c : Nat} (inside : c < n + 1) (other : c ≠ q)
    (place : copied q c < n) : q.succAbove ⟨copied q c, place⟩ = ⟨c, inside⟩ := by
  by_cases before : c ≤ q
  · have below : c < q.val := by omega
    have column : copied q c = c := if_pos before
    rw [Fin.succAbove_of_castSucc_lt _ _ (by rw [Fin.lt_def]; simpa [column] using below)]
    exact Fin.ext column
  · have column : copied q c = c - 1 := if_neg before
    rw [Fin.succAbove_of_le_castSucc _ _ (by rw [Fin.le_def]; simp [column]; omega)]
    apply Fin.ext
    simp [column]
    omega

/-- The row `target` when the columns before `c` are copied, and the counter. -/
def rowCopied (M : Common.Matrix T (n + 1) (n + 1)) (q r : Fin (n + 1)) (target : Fin n)
    (t : Common.Matrix T n n) (c : Nat) : Common.Matrix T n n × Nat :=
  (Function.update t target
    (filled (fun j => M r (q.succAbove j)) (t target) (copied q c)), copied q c)

theorem copied_lt {q : Fin (n + 1)} {c : Nat} (inside : c < n + 1) (other : c ≠ q) :
    copied q c < n := by
  have bound := q.isLt
  unfold copied
  split <;> omega

theorem copyColumn_eq (M : Common.Matrix T (n + 1) (n + 1)) (q r : Fin (n + 1)) (target : Fin n)
    (t : Common.Matrix T n n) {c : Nat} (inside : c < n + 1) :
    copyColumn M q r target c (rowCopied M q r target t c) =
      some (rowCopied M q r target t (c + 1)) := by
  by_cases here : c = q
  · -- The column is left out, and the counter stays.
    have stays : copied q (c + 1) = copied q c := by
      rw [copied, copied, if_pos here.le, if_neg (by omega)]
      rfl
    rw [copyColumn, if_neg (not_not.mpr here), rowCopied, rowCopied, stays]
  · have counts : copied q (c + 1) = copied q c + 1 := by
      unfold copied
      split <;> split <;> omega
    have place : copied q c < n := copied_lt inside here
    have column := succAbove_copied inside here place
    rw [copyColumn, if_pos here, M.entry_inside r.isLt inside, Option.bind_some]
    simp only [rowCopied]
    rw [Common.Matrix.setEntry_inside _ _ target.isLt place, Option.map_some, counts,
      ← update_filled place, column, Function.update_idem, Function.update_self]

theorem copyRow_eq (M : Common.Matrix T (n + 1) (n + 1)) (q r : Fin (n + 1)) (target : Fin n)
    (t : Common.Matrix T n n) :
    copyRow M q r target t =
      some (Function.update t target fun j => M r (q.succAbove j)) := by
  have finished : copied q (n + 1) = n := if_neg (by omega)
  have followed : loop 0 (n + 1) (copyColumn M q r target) (t, 0) =
      some (rowCopied M q r target t (n + 1)) := by
    refine loop_follows (rowCopied M q r target t) (Nat.zero_le _) ?_ rfl
      fun c _ inside => copyColumn_eq M q r target t inside
    rw [rowCopied, copied, if_pos (Nat.zero_le _), filled_zero, Function.update_eq_self]
  rw [copyRow, followed, Option.map_some, rowCopied, finished, filled_all le_rfl]

/-- The matrix without row `p` and column `q`. -/
def minor (M : Common.Matrix T (n + 1) (n + 1)) (p q : Fin (n + 1)) : Common.Matrix T n n :=
  fun i j => M (p.succAbove i) (q.succAbove j)

variable [Zero T]

theorem copyRow_minor (M : Common.Matrix T (n + 1) (n + 1)) (p q : Fin (n + 1)) {r : Nat}
    (inside : r < n + 1) (other : r ≠ p) :
    copyRow M q r (copied p r) (filled (minor M p q) 0 (copied p r)) =
      some (filled (minor M p q) 0 (copied p r + 1)) := by
  have place : copied p r < n := copied_lt inside other
  have row : minor M p q ⟨copied p r, place⟩ = fun j => M ⟨r, inside⟩ (q.succAbove j) := by
    unfold minor
    rw [succAbove_copied inside other place]
  rw [← update_filled place, row]
  exact copyRow_eq M q ⟨r, inside⟩ ⟨copied p r, place⟩ _

theorem getCfactor_eq (M : Common.Matrix T (n + 1) (n + 1)) (p q : Fin (n + 1)) :
    getCfactor M p q = some (minor M p q) := by
  have above : loop 0 p (fun r t => copyRow M q r r t) 0 = some (filled (minor M p q) 0 p) := by
    refine loop_follows (filled (minor M p q) 0) (Nat.zero_le _) filled_zero rfl
      fun r _ before => ?_
    have copies := copyRow_minor M p q (before.trans p.isLt) before.ne
    rwa [copied, if_pos before.le] at copies
  -- The rows below `p` move up by one.
  have below : loop (p + 1) (n + 1) (fun r t => copyRow M q r (r - 1) t)
      (filled (minor M p q) 0 p) = some (minor M p q) := by
    refine loop_follows (fun r => filled (minor M p q) 0 (r - 1)) (Nat.succ_le_of_lt p.isLt) rfl
      (filled_all le_rfl) fun r behind inside => ?_
    have copies := copyRow_minor M p q inside (by omega)
    rwa [copied, if_neg (by omega), show r - 1 + 1 = r + 1 - 1 by omega] at copies
  rw [getCfactor, above, Option.bind_some, below]

end Minors

section Field

variable [Field T]

/-- A pass of the expansion along the first row, whose sign is an `int`. -/
def expand (M : Common.Matrix T (n + 2) (n + 2)) (det : Common.Matrix T (n + 1) (n + 1) → Option T)
    (f : Nat) (state : T × Int) : Option (T × Int) :=
  (getCfactor M 0 f).bind fun t =>
    (M.entry 0 f).bind fun entry =>
      (det t).map fun detT => (state.1 + state.2 * entry * detT, -state.2)

def calcDet : (n : Nat) → Common.Matrix T (n + 1) (n + 1) → Option T
  | 0, M => M.entry 0 0
  | n + 1, M => (loop 0 (n + 2) (expand M (calcDet n)) (0, 1)).map Prod.fst

def calcAdj : (n : Nat) → Common.Matrix T (n + 1) (n + 1) →
    Option (Common.Matrix T (n + 1) (n + 1))
  | 0, _ => some fun _ _ => 1
  | n + 1, M =>
      loop 0 (n + 2) (fun i adj =>
        loop 0 (n + 2) (fun j adj =>
          let s : Int := 1 + -2 * ((i + j) % 2 : Nat)
          (getCfactor M i j).bind fun t =>
            (calcDet n t).bind fun detT =>
              -- The rows and columns are interchanged.
              Common.Matrix.setEntry adj j i (s * detT)) adj) 0

/-- The outer result is missing where an access is out of bounds, the inner one where `calc_inv` is
empty. -/
def calcInv [DecidableEq T] (n : Nat) (M : Common.Matrix T (n + 1) (n + 1)) :
    Option (Option (Common.Matrix T (n + 1) (n + 1))) :=
  (calcDet n M).bind fun d =>
    if d = 0 then some none
    else (calcAdj n M).map fun adj => some fun r c => adj r c / d

theorem calcDet_eq (M : Common.Matrix T (n + 1) (n + 1)) :
    calcDet n M = some (Matrix.of M).det := by
  induction n with
  | zero =>
      rw [Matrix.det_eq_elem_of_subsingleton _ (0 : Fin 1)]
      exact M.entry_inside Nat.zero_lt_one Nat.zero_lt_one
  | succ n ih =>
      -- After `f` passes the first `f` terms of the expansion are added and the sign has changed
      -- `f` times.
      have followed : loop 0 (n + 2) (expand M (calcDet n)) (0, 1) =
          some (summed (fun j => (-1) ^ j.val * M 0 j * (Matrix.of (minor M 0 j)).det) (n + 2),
            (-1) ^ (n + 2)) := by
        refine loop_follows (fun f => (summed _ f, (-1) ^ f)) (Nat.zero_le _)
          (by rw [summed_zero, pow_zero]) rfl fun f _ inside => ?_
        have cofactor : getCfactor M 0 f = some (minor M 0 ⟨f, inside⟩) :=
          getCfactor_eq M 0 ⟨f, inside⟩
        have entry : M.entry 0 f = some (M 0 ⟨f, inside⟩) :=
          M.entry_inside (Nat.succ_pos _) inside
        rw [expand, cofactor, Option.bind_some, entry, Option.bind_some, ih, Option.map_some,
          summed_succ inside, pow_succ, mul_neg_one]
        push_cast
        rfl
      rw [calcDet, followed, Option.map_some, summed_all, Matrix.det_succ_row_zero]
      simp only [← Fin.succAbove_zero]
      rfl

theorem sign_eq (k : Nat) : ((1 + -2 * (k % 2 : Nat) : Int) : T) = (-1) ^ k := by
  rcases Nat.even_or_odd k with even | odd
  · rw [Nat.even_iff.mp even, even.neg_one_pow]
    norm_num
  · rw [Nat.odd_iff.mp odd, odd.neg_one_pow]
    norm_num

theorem calcAdj_eq (M : Common.Matrix T (n + 1) (n + 1)) :
    calcAdj n M = some (Matrix.of.symm (Matrix.of M).adjugate) := by
  cases n with
  | zero =>
      have single : Subsingleton (Fin (0 + 1)) := Fin.subsingleton_one
      rw [Matrix.adjugate_subsingleton, calcAdj, Option.some.injEq]
      funext r c
      rw [Matrix.of_symm_apply, Subsingleton.elim r c, Matrix.one_apply_eq]
  | succ n =>
      have written := loop_achieves (Nat.zero_le (n + 2)) fun i _ (row : i < n + 2) =>
        loop_achieves (Nat.zero_le (n + 2)) fun j _ (column : j < n + 2) => by
          have cofactor : getCfactor M i j = some (minor M ⟨i, row⟩ ⟨j, column⟩) :=
            getCfactor_eq M ⟨i, row⟩ ⟨j, column⟩
          have stored : ((1 + -2 * ((i + j) % 2 : Nat) : Int) : T) *
              (Matrix.of (minor M ⟨i, row⟩ ⟨j, column⟩)).det =
                (Matrix.of M).adjugate ⟨j, column⟩ ⟨i, row⟩ := by
            rw [sign_eq, Matrix.adjugate_fin_succ_eq_det_submatrix]
            rfl
          have value : ((getCfactor M i j).bind fun t => (calcDet n t).bind fun detT =>
              some (((1 + -2 * ((i + j) % 2 : Nat) : Int) : T) * detT)) =
                some ((Matrix.of M).adjugate ⟨j, column⟩ ⟨i, row⟩) := by
            rw [cofactor, Option.bind_some, calcDet_eq, Option.bind_some, stored]
          exact Common.setEntry_achieves (Matrix.of.symm (Matrix.of M).adjugate) column row value
      obtain ⟨adj, ended, right⟩ := written 0
      have every : adj = Matrix.of.symm (Matrix.of M).adjugate := by
        funext j i
        apply right (j, i)
        exact .inl ⟨i, Nat.zero_le _, i.isLt, j, Nat.zero_le _, j.isLt, rfl, rfl⟩
      simp only [Option.bind_assoc, Option.bind_some] at ended
      rw [calcAdj, ended, every]

theorem calcInv_eq [DecidableEq T] (M : Common.Matrix T (n + 1) (n + 1)) :
    calcInv n M = some (if (Matrix.of M).det = 0 then none
      else some fun r c => (Matrix.of M).adjugate r c / (Matrix.of M).det) := by
  rw [calcInv, calcDet_eq, Option.bind_some, calcAdj_eq]
  split <;> rfl

/-- Both products with the other matrix are what `eye` returns. -/
def Inverts (M R : Common.Matrix T (n + 1) (n + 1)) : Prop :=
  ∃ identity, eye (n + 1) 1 = some identity ∧
    mxMultiply M R = some identity ∧ mxMultiply R M = some identity

theorem mxMultiply_mul (M R : Common.Matrix T (n + 1) (n + 1)) :
    mxMultiply M R = some (Matrix.of.symm (Matrix.of M * Matrix.of R)) := by
  rw [mxMultiply_eq, Option.some.injEq]
  funext i j
  rw [Finset.sum_apply, Matrix.of_symm_apply, Matrix.mul_apply]
  rfl

theorem eye_one : eye (n + 1) (1 : T) = some (Matrix.of.symm 1) := by
  rw [eye_eq, Option.some.injEq]
  funext i j
  rw [Matrix.of_symm_apply, Matrix.one_apply, Pi.single_apply]
  simp only [eq_comm]

theorem inverts_iff (M R : Common.Matrix T (n + 1) (n + 1)) :
    Inverts M R ↔ Matrix.of M * Matrix.of R = 1 ∧ Matrix.of R * Matrix.of M = 1 := by
  rw [Inverts, eye_one, mxMultiply_mul, mxMultiply_mul]
  constructor
  · rintro ⟨identity, same, left, right⟩
    rw [← same] at left right
    exact ⟨Matrix.of.symm.injective (Option.some.inj left),
      Matrix.of.symm.injective (Option.some.inj right)⟩
  · rintro ⟨left, right⟩
    rw [left, right]
    exact ⟨_, rfl, rfl, rfl⟩

/-- Where the determinant is not zero, the scaled adjugate is an inverse. -/
theorem inverts_adjugate (M : Common.Matrix T (n + 1) (n + 1)) (regular : (Matrix.of M).det ≠ 0) :
    Inverts M fun r c => (Matrix.of M).adjugate r c / (Matrix.of M).det := by
  have scaled : (Matrix.of fun r c => (Matrix.of M).adjugate r c / (Matrix.of M).det) =
      (Matrix.of M).det⁻¹ • (Matrix.of M).adjugate := by
    ext r c
    rw [Matrix.of_apply, Matrix.smul_apply, smul_eq_mul, div_eq_inv_mul]
  rw [inverts_iff, scaled]
  constructor
  · rw [Matrix.mul_smul, Matrix.mul_adjugate, smul_smul, inv_mul_cancel₀ regular, one_smul]
  · rw [Matrix.smul_mul, Matrix.adjugate_mul, smul_smul, inv_mul_cancel₀ regular, one_smul]

/-- `calc_inv` is empty for the matrices without an inverse and returns an inverse of every other
one. No access on the way is out of bounds. -/
theorem calcInv_inverts [DecidableEq T] (M : Common.Matrix T (n + 1) (n + 1)) :
    ∃ result, calcInv n M = some result ∧
      (result = none ↔ ¬ ∃ R, Inverts M R) ∧ ∀ R, result = some R → Inverts M R := by
  refine ⟨_, calcInv_eq M, ?_⟩
  by_cases singular : (Matrix.of M).det = 0
  · rw [if_pos singular]
    refine ⟨⟨fun _ => ?_, fun _ => rfl⟩, fun R returned => ?_⟩
    · rintro ⟨R, inverts⟩
      have product := ((inverts_iff M R).mp inverts).1
      exact Matrix.det_ne_zero_of_right_inverse product singular
    · contradiction
  · rw [if_neg singular]
    have inverts := inverts_adjugate M singular
    refine ⟨⟨fun returned => ?_, fun missing => absurd ⟨_, inverts⟩ missing⟩, fun R returned => ?_⟩
    · contradiction
    · rwa [← Option.some.inj returned]

end Field

end MartCommon.Experimental.LinAlg

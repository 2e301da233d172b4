import MartCommon.Library.Decimal
import MartCommon.Library.Lexicographic

namespace MartCommon.Mba

open Library Library.Lexicographic

/-- The operators that `IM_STR_DETAIL_STRING_VIEW_MIXIN_DEFINE_BINARY_OP` is used for. -/
inductive BinaryOp where
  | eq
  | ne
  | lt
  | le
  | gt
  | ge
  deriving DecidableEq

/-- The operators of `std::string_view` look at the sign of `compare`, whose characters are
unsigned. -/
def BinaryOp.ofViews (op : BinaryOp) (l r : Text) : Bool :=
  match op with
  | .eq => compareLists l r == .eq
  | .ne => compareLists l r != .eq
  | .lt => compareLists l r == .lt
  | .le => compareLists l r != .gt
  | .gt => compareLists l r == .gt
  | .ge => compareLists l r != .lt

/-- A `str_view_mixin<T>` shows the characters of its derived class. -/
structure StrViewMixin where
  toStringView : Text
  deriving DecidableEq

namespace StrViewMixin

/-- `operator OP( const str_view_mixin<T>& l, const str_view_mixin<T>& r )` -/
def opMixins (op : BinaryOp) (l r : StrViewMixin) : Bool := op.ofViews l.toStringView r.toStringView

/-- `operator OP( std::string_view l, const str_view_mixin<T>& r )`. The macro does not use its
argument here. -/
def opViewMixin (_op : BinaryOp) (l : Text) (r : StrViewMixin) : Bool :=
  BinaryOp.eq.ofViews l r.toStringView

/-- `operator OP( const str_view_mixin<T>& l, std::string_view r )` -/
def opMixinView (op : BinaryOp) (l : StrViewMixin) (r : Text) : Bool := op.ofViews l.toStringView r

end StrViewMixin

/-- The three forms of operands. -/
inductive Form where
  | mixins
  | viewMixin
  | mixinView
  deriving DecidableEq

/-- The answer that an operator gives on two character sequences in one form. -/
def Form.answer (form : Form) (op : BinaryOp) (a b : Text) : Bool :=
  match form with
  | .mixins => StrViewMixin.opMixins op ⟨a⟩ ⟨b⟩
  | .viewMixin => StrViewMixin.opViewMixin op a ⟨b⟩
  | .mixinView => StrViewMixin.opMixinView op ⟨a⟩ b

/-- What an operator means for the lexicographic order. -/
def BinaryOp.Holds (op : BinaryOp) (a b : Text) : Prop :=
  match op with
  | .eq => a = b
  | .ne => a ≠ b
  | .lt => a < b
  | .le => a ≤ b
  | .gt => b < a
  | .ge => b ≤ a

/-- The condition under which equality gives the answer of another operator. -/
def BinaryOp.LikeEq (op : BinaryOp) (a b : Text) : Prop :=
  match op with
  | .eq => True
  | .ne => False
  | .lt => b < a
  | .le => b ≤ a
  | .gt => a < b
  | .ge => a ≤ b

/-- The comparison has the sign of the lexicographic order. -/
theorem compareLists_sign (a b : Text) :
    (compareLists a b = .lt ↔ a < b) ∧ (compareLists a b = .eq ↔ a = b) ∧
      (compareLists a b = .gt ↔ b < a) := by
  rw [compareLists_eq]
  refine ⟨compare_eq_lt_iff a b, Std.LawfulEqOrd.compare_eq_iff_eq, ?_⟩
  rw [Std.OrientedCmp.gt_iff_lt, compare_eq_lt_iff]

/-- The operators of `std::string_view` follow the lexicographic order. -/
theorem ofViews_iff (op : BinaryOp) (a b : Text) : op.ofViews a b = true ↔ op.Holds a b := by
  obtain ⟨less, same, greater⟩ := compareLists_sign a b
  cases op with
  | eq => simp [BinaryOp.ofViews, BinaryOp.Holds, same]
  | ne => simp [BinaryOp.ofViews, BinaryOp.Holds, same]
  | lt => simp [BinaryOp.ofViews, BinaryOp.Holds, less]
  | le => simp [BinaryOp.ofViews, BinaryOp.Holds, greater, List.not_lt]
  | gt => simp [BinaryOp.ofViews, BinaryOp.Holds, greater]
  | ge => simp [BinaryOp.ofViews, BinaryOp.Holds, less, List.not_lt]

/-- Equality gives the answer of an operator exactly under its condition. -/
theorem eq_iff_holds_iff (op : BinaryOp) (a b : Text) : (a = b ↔ op.Holds a b) ↔ op.LikeEq a b := by
  obtain ⟨less, same, greater⟩ := compareLists_sign a b
  cases op with
  | eq => simp [BinaryOp.Holds, BinaryOp.LikeEq]
  | ne => simp [BinaryOp.Holds, BinaryOp.LikeEq]
  | lt =>
      simp only [BinaryOp.Holds, BinaryOp.LikeEq, ← less, ← same, ← greater]
      cases compareLists a b <;> decide
  | le =>
      simp only [BinaryOp.Holds, BinaryOp.LikeEq, ← List.not_lt, ← less, ← same, ← greater]
      cases compareLists a b <;> decide
  | gt =>
      simp only [BinaryOp.Holds, BinaryOp.LikeEq, ← less, ← same, ← greater]
      cases compareLists a b <;> decide
  | ge =>
      simp only [BinaryOp.Holds, BinaryOp.LikeEq, ← List.not_lt, ← less, ← same, ← greater]
      cases compareLists a b <;> decide

/-- An overload meets the order on two sequences when its answer is that of the order. -/
def Form.MeetsOrder (form : Form) (op : BinaryOp) (a b : Text) : Prop :=
  form.answer op a b = true ↔ op.Holds a b

/-- An overload meets the order unless its left operand alone is a `std::string_view`. Those overloads
meet it exactly where the order has the answer of equality. -/
theorem meetsOrder_iff (form : Form) (op : BinaryOp) (a b : Text) :
    form.MeetsOrder op a b ↔ (form = .viewMixin → op.LikeEq a b) := by
  cases form with
  | mixins => simp [Form.MeetsOrder, Form.answer, StrViewMixin.opMixins, ofViews_iff]
  | viewMixin =>
      rw [← eq_iff_holds_iff]
      simp [Form.MeetsOrder, Form.answer, StrViewMixin.opViewMixin, ofViews_iff, BinaryOp.Holds]
  | mixinView => simp [Form.MeetsOrder, Form.answer, StrViewMixin.opMixinView, ofViews_iff]

/-- A `std::string_view` differs from an equal string, and is not less than a greater one. -/
theorem meetsOrder_drifts :
    ¬ Form.viewMixin.MeetsOrder .ne (ascii "a") (ascii "a") ∧
      ¬ Form.viewMixin.MeetsOrder .lt (ascii "a") (ascii "b") := by
  refine ⟨?_, ?_⟩
  · unfold Form.MeetsOrder BinaryOp.Holds
    decide
  · unfold Form.MeetsOrder BinaryOp.Holds
    decide

end MartCommon.Mba

import MartCommon.Library.OutputStream

namespace MartCommon.Common

open Library Library.OutputStream

def spaces (count : Nat) : Text := List.replicate count 32

/-- `_impl::ViewOfSpaces` -/
def viewOfSpaces : Text := spaces 330

/-- `getSpaces( count )`. The position zero is inside, so that `substr` does not throw. -/
def getSpaces (count : Nat) : Text := viewOfSpaces.take count

inductive Pad where
  | middle
  | left
  | right
  deriving DecidableEq

structure PaddedStringView where
  string : Text
  totalLength : Nat
  side : Pad

namespace PaddedStringView

variable (e : PaddedStringView)

/-- `space_cnt`, which is the same for all sides. -/
def spaceCnt : Nat := if e.totalLength ≤ e.string.length then 0 else e.totalLength - e.string.length

/-- `operator<<` -/
def insert : Inserter :=
  match e.side with
  | .left => insertAll [insertText (getSpaces e.spaceCnt), insertText e.string]
  | .right => insertAll [insertText e.string, insertText (getSpaces e.spaceCnt)]
  | .middle =>
      let leftCnt := e.spaceCnt / 2
      let rightCnt := e.spaceCnt - leftCnt
      insertAll [insertText (getSpaces leftCnt), insertText e.string, insertText (getSpaces rightCnt)]

end PaddedStringView

/-- `padded( str, total_length, pad )` -/
def padded (str : Text) (totalLength : Nat) (pad : Pad) : PaddedStringView := ⟨str, totalLength, pad⟩

/-- How the spaces may be distributed to both sides. -/
def Pad.Splits (left right : Nat) : Pad → Prop
  | .left => right = 0
  | .right => left = 0
  | .middle => left ≤ right + 1 ∧ right ≤ left + 1

/-- The string with the spaces that it needs for the length, on the sides where they belong. -/
def IsPadded (str : Text) (totalLength : Nat) (pad : Pad) (text : Text) : Prop :=
  text.length = max totalLength str.length ∧
    ∃ left right, text = spaces left ++ str ++ spaces right ∧ pad.Splits left right

/-- As many spaces as `getSpaces` can provide on the sides of the padding. -/
def Pad.available : Pad → Nat
  | .left => viewOfSpaces.length
  | .right => viewOfSpaces.length
  | .middle => 2 * viewOfSpaces.length

@[simp] theorem length_spaces (count : Nat) : (spaces count).length = count := List.length_replicate

theorem length_viewOfSpaces : viewOfSpaces.length = 330 := length_spaces 330

theorem getSpaces_eq (count : Nat) : getSpaces count = spaces (min count 330) := List.take_replicate ..

/-- The three parts of a padded string. -/
theorem insert_text (str : Text) (totalLength : Nat) (pad : Pad) (settings : Settings)
    (adjust : Adjust) : ∃ left right,
      ((padded str totalLength pad).insert ⟨settings, adjust, 0, false⟩).text =
          spaces (min left 330) ++ str ++ spaces (min right 330) ∧
        left + right = totalLength - str.length ∧ pad.Splits left right ∧
          pad.Splits (min left 330) (min right 330) := by
  have count : (padded str totalLength pad).spaceCnt = totalLength - str.length := by
    change (if totalLength ≤ str.length then 0 else totalLength - str.length) = _
    split <;> omega
  have plain (texts : List Text) : (insertAll (texts.map insertText) ⟨settings, adjust, 0, false⟩).text =
      texts.flatten := by
    rw [insertAll_plain rfl rfl]
  cases pad with
  | left =>
      refine ⟨totalLength - str.length, 0, ?_, rfl, rfl, rfl⟩
      change (insertAll ([getSpaces (padded str totalLength .left).spaceCnt, str].map insertText) _).text = _
      rw [plain, count, getSpaces_eq]
      simp [spaces]
  | right =>
      refine ⟨0, totalLength - str.length, ?_, Nat.zero_add _, rfl, rfl⟩
      change (insertAll ([str, getSpaces (padded str totalLength .right).spaceCnt].map insertText) _).text = _
      rw [plain, count, getSpaces_eq]
      simp [spaces]
  | middle =>
      refine ⟨(totalLength - str.length) / 2,
        totalLength - str.length - (totalLength - str.length) / 2, ?_, by omega, ?_, ?_⟩
      · rw [← count, ← getSpaces_eq, ← getSpaces_eq]
        change (insertAll ([getSpaces _, str, getSpaces _].map insertText) _).text = _
        rw [plain]
        simp
      · simp only [Pad.Splits]
        omega
      · simp only [Pad.Splits]
        omega

/-- Padding is right for every stream that has not failed, without a pending width, if and only if there are
enough spaces. -/
theorem padded_iff (str : Text) (totalLength : Nat) (pad : Pad) (settings : Settings)
    (adjust : Adjust) :
    IsPadded str totalLength pad ((padded str totalLength pad).insert ⟨settings, adjust, 0, false⟩).text ↔
      totalLength - str.length ≤ pad.available := by
  obtain ⟨left, right, text, sum, splits, clipped⟩ :=
    insert_text str totalLength pad settings adjust
  have whole : IsPadded str totalLength pad (spaces (min left 330) ++ str ++ spaces (min right 330)) ↔
      min left 330 + min right 330 = left + right := by
    have length : (spaces (min left 330) ++ str ++ spaces (min right 330)).length =
        min left 330 + str.length + min right 330 := by
      simp only [List.length_append, length_spaces]
    rw [IsPadded, length, and_iff_left ⟨_, _, rfl, clipped⟩]
    omega
  rw [text, whole]
  cases pad <;> simp only [Pad.Splits, Pad.available, length_viewOfSpaces] at splits ⊢ <;> omega

/-- There are 330 spaces, so one more on the left is missing. -/
theorem padded_clipped : ¬ IsPadded [] 331 .left ((padded [] 331 .left).insert {}).text := by
  intro whole
  have short : ((padded [] 331 .left).insert {}).text.length = 330 := by decide +kernel
  exact absurd (short.symm.trans whole.1) (by decide)

end MartCommon.Common

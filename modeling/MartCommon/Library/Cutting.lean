import Mathlib.Data.List.Basic

namespace MartCommon.Library

variable {α : Type*} {mark : α} {front tail text : List α} {pieces : List (List α)}

/-- There is at least one piece. -/
theorem exists_cons_of_counted {count : Nat} (counted : pieces.length = 1 + count) :
    ∃ piece rest, pieces = piece :: rest := by
  apply List.exists_cons_of_ne_nil
  intro none
  rw [none, List.length_nil] at counted
  omega

variable [DecidableEq α]

/-- A text that was cut at each mark, where the marks are left out. -/
structure CutOut (mark : α) (text : List α) (pieces : List (List α)) : Prop where
  joined : [mark].intercalate pieces = text
  counted : pieces.length = 1 + text.count mark
  free : ∀ piece ∈ pieces, mark ∉ piece

/-- A text that was cut behind each mark. -/
structure CutAfter (mark : α) (text : List α) (pieces : List (List α)) : Prop where
  joined : pieces.flatten = text
  counted : pieces.length = 1 + text.count mark
  ended : ∀ piece ∈ pieces.dropLast, ∃ front, piece = front ++ [mark] ∧ mark ∉ front
  last : ∀ piece ∈ pieces.getLast?, mark ∉ piece

/-- A text that was cut in front of each mark. -/
structure CutBefore (mark : α) (text : List α) (pieces : List (List α)) : Prop where
  joined : pieces.flatten = text
  counted : pieces.length = 1 + text.count mark
  first : ∀ piece ∈ pieces.head?, mark ∉ piece
  begun : ∀ piece ∈ pieces.tail, ∃ rest, piece = mark :: rest ∧ mark ∉ rest

/-- Up to the first mark there is none. -/
theorem count_firstMark (absent : mark ∉ front) :
    (front ++ mark :: tail).count mark = 1 + tail.count mark := by
  rw [List.count_append, List.count_eq_zero_of_not_mem absent, List.count_cons_self, Nat.zero_add,
    Nat.add_comm]

namespace CutOut

/-- The pieces are the longest parts of the text without the mark. -/
theorem eq_splitOn (cut : CutOut mark text pieces) : pieces = text.splitOn mark := by
  obtain ⟨piece, rest, rfl⟩ := exists_cons_of_counted cut.counted
  rw [← cut.joined, List.splitOn_intercalate mark cut.free (List.cons_ne_nil _ _)]

theorem whole (absent : mark ∉ text) : CutOut mark text [text] where
  joined := List.intercalate_singleton
  counted := by rw [List.count_eq_zero_of_not_mem absent, List.length_singleton]
  free := by
    intro piece member
    rwa [List.mem_singleton.mp member]

theorem cons (absent : mark ∉ front) (cut : CutOut mark tail pieces) :
    CutOut mark (front ++ mark :: tail) (front :: pieces) where
  joined := by
    obtain ⟨piece, rest, same⟩ := exists_cons_of_counted cut.counted
    have joined := cut.joined
    subst same
    rw [List.intercalate_cons_cons, joined, List.append_assoc]
    rfl
  counted := by rw [count_firstMark absent, List.length_cons, cut.counted, Nat.add_comm]
  free := by
    intro piece member
    rcases List.mem_cons.mp member with rfl | member
    · exact absent
    · exact cut.free piece member

end CutOut

namespace CutAfter

theorem whole (absent : mark ∉ text) : CutAfter mark text [text] where
  joined := by rw [List.flatten_singleton]
  counted := by rw [List.count_eq_zero_of_not_mem absent, List.length_singleton]
  ended := nofun
  last := by
    intro piece member
    rwa [← Option.some.inj member]

theorem cons (absent : mark ∉ front) (cut : CutAfter mark tail pieces) :
    CutAfter mark (front ++ mark :: tail) ((front ++ [mark]) :: pieces) where
  joined := by
    rw [List.flatten_cons, cut.joined, List.append_assoc]
    rfl
  counted := by rw [count_firstMark absent, List.length_cons, cut.counted, Nat.add_comm]
  ended := by
    obtain ⟨piece, rest, same⟩ := exists_cons_of_counted cut.counted
    intro other member
    rw [same, List.dropLast_cons_cons, ← same] at member
    rcases List.mem_cons.mp member with rfl | member
    · exact ⟨front, rfl, absent⟩
    · exact cut.ended other member
  last := by
    obtain ⟨piece, rest, same⟩ := exists_cons_of_counted cut.counted
    intro other member
    rw [same, List.getLast?_cons_cons, ← same] at member
    exact cut.last other member

end CutAfter

namespace CutBefore

theorem whole (absent : mark ∉ text) : CutBefore mark text [text] where
  joined := by rw [List.flatten_singleton]
  counted := by rw [List.count_eq_zero_of_not_mem absent, List.length_singleton]
  first := by
    intro piece member
    rwa [← Option.some.inj member]
  begun := nofun

/-- The mark belongs to the piece that follows. -/
theorem cons (absent : mark ∉ front) (cut : CutBefore mark tail pieces) :
    CutBefore mark (front ++ mark :: tail) (front :: pieces.modifyHead (mark :: ·)) := by
  obtain ⟨piece, rest, rfl⟩ := exists_cons_of_counted cut.counted
  refine ⟨?_, ?_, ?_, ?_⟩
  · rw [← cut.joined]
    rfl
  · rw [count_firstMark absent, ← cut.counted]
    exact Nat.add_comm _ _
  · intro other member
    rwa [← Option.some.inj member]
  · intro other member
    rcases List.mem_cons.mp member with rfl | member
    · exact ⟨piece, rfl, cut.first piece rfl⟩
    · exact cut.begun other member

/-- Another character in front belongs to the first piece. -/
theorem prepend {char : α} (different : char ≠ mark) (cut : CutBefore mark text pieces) :
    CutBefore mark (char :: text) (pieces.modifyHead (char :: ·)) := by
  obtain ⟨piece, rest, rfl⟩ := exists_cons_of_counted cut.counted
  refine ⟨?_, ?_, ?_, cut.begun⟩
  · rw [← cut.joined]
    rfl
  · rw [List.count_cons_of_ne different, ← cut.counted]
    rfl
  · intro other member
    rw [← Option.some.inj member, List.mem_cons, not_or]
    exact ⟨different.symm, cut.first piece rfl⟩

end CutBefore

end MartCommon.Library

import MartCommon.Library.Decimal
import MartCommon.Library.RefCount
import Mathlib.Algebra.Order.Group.Multiset

namespace MartCommon.Mba

open Library Library.RefCount

/-- A program of the strings allocates blocks of characters. -/
abbrev Prog (Result : Type) := Program Text Result

/-- `_incref`. -/
def incref : Handle → Prog Unit
  | none => pure ()
  | some cnt => .fetchAdd cnt 1 (.done ())

/-- `_decref`. -/
def decref : Handle → Prog Unit
  | none => pure ()
  | some cnt => .fetchSub cnt fun old =>
      if old = 1 then .dealloc cnt (.done ()) else .done ()

/-- `add_ref_cnt`. No caller reads the new count that it returns. -/
def addRefCnt (handle : Handle) (cnt : Nat) : Prog Unit :=
  match handle with
  | none => pure ()
  | some block => .fetchAdd block cnt (.done ())

namespace AtomicRefCntBuffer

/-- `atomic_ref_cnt_buffer( const atomic_ref_cnt_buffer& other )`. -/
def copyConstruct (other : Handle) : Prog Handle := do
  incref other
  pure other

/-- `atomic_ref_cnt_buffer( atomic_ref_cnt_buffer&& other )`, with what is left in the other. -/
def moveConstruct (other : Handle) : Handle × Handle := (other, none)

/-- `operator=( const atomic_ref_cnt_buffer& other )`. -/
def copyAssign (this other : Handle) : Prog Handle := do
  incref other
  decref this
  pure other

/-- `operator=( atomic_ref_cnt_buffer&& other )` from another handle, with what is left in it. -/
def moveAssign (this other : Handle) : Prog (Handle × Handle) := do
  decref this
  pure (moveConstruct other)

/-- `operator=( atomic_ref_cnt_buffer&& other )` from the handle itself. The assertion holds only for
a handle on nothing, which stays one. -/
def selfMoveAssign (this : Handle) : Prog Handle :=
  if this = none then pure this else .abort

/-- `allocate_null_terminated_char_buffer( static_cast<int>( size ) )` and the copy of the characters
that follows it. Nobody else sees the block before its handle leaves the function, so that its counter,
its characters and its terminator appear at once. From `2 ^ 31` on the size turns negative, which the
assertion refuses, or loses high bits, and the copy leaves the block. -/
def allocate (chars : Text) : Prog Block :=
  if chars.length < 2 ^ 31 then .alloc (chars ++ [0]) .done else .abort

end AtomicRefCntBuffer

section Sound

variable {contents : Block → Option Text} {held rest : Multiset Block}

/-- A handle is counted next to one that is counted already. -/
theorem sound_incref {handle : Handle} {post : Unit → Multiset Block → Prop}
    (counted : handle.tokens ≤ held) (ends : post () (handle.tokens + held)) :
    (incref handle).Sound contents post none held := by
  cases handle with
  | none => simpa [incref] using ends
  | some block =>
      refine ⟨rfl, Multiset.singleton_le.mp counted, ?_⟩
      rwa [Program.sound_done, Multiset.replicate_one, add_comm]

/-- The handle that goes away leaves the rest of the handles. -/
theorem sound_decref {handle : Handle} {post : Unit → Multiset Block → Prop}
    (ends : post () rest) : (decref handle).Sound contents post none (handle.tokens + rest) := by
  cases handle with
  | none => simpa [decref] using ends
  | some block =>
      refine ⟨rfl, by simp, fun old => ?_⟩
      rw [Handle.tokens_some, Multiset.singleton_add, Multiset.erase_cons_head]
      by_cases last : old = 1
      · simp only [if_pos last]
        exact ⟨rfl, Program.sound_done.mpr ends⟩
      · simp only [if_neg last]
        exact Program.sound_done.mpr ends

/-- Several handles are counted at once next to one that is counted already. -/
theorem sound_addRefCnt {handle : Handle} {cnt : Nat} {post : Unit → Multiset Block → Prop}
    (counted : handle.tokens ≤ held) (ends : post () (cnt • handle.tokens + held)) :
    (addRefCnt handle cnt).Sound contents post none held := by
  cases handle with
  | none => simpa [addRefCnt] using ends
  | some block =>
      refine ⟨rfl, Multiset.singleton_le.mp counted, ?_⟩
      rwa [Program.sound_done, ← Multiset.nsmul_singleton block cnt, add_comm]

namespace AtomicRefCntBuffer

variable {this other : Handle}

theorem sound_copyConstruct {post : Handle → Multiset Block → Prop}
    (counted : other.tokens ≤ held) (ends : post other (other.tokens + held)) :
    (copyConstruct other).Sound contents post none held :=
  .bind (sound_incref counted (Program.sound_pure.mpr ends))

/-- The increment before the decrement keeps the buffer alive where both handles are the same. -/
theorem sound_copyAssign {post : Handle → Multiset Block → Prop}
    (counted : other.tokens ≤ this.tokens + rest) (ends : post other (other.tokens + rest)) :
    (copyAssign this other).Sound contents post none (this.tokens + rest) := by
  refine .bind (sound_incref counted (.bind ?_))
  rw [add_left_comm]
  exact sound_decref (Program.sound_pure.mpr ends)

theorem sound_moveAssign {post : Handle × Handle → Multiset Block → Prop}
    (ends : post (other, none) rest) :
    (moveAssign this other).Sound contents post none (this.tokens + rest) :=
  .bind (sound_decref (Program.sound_pure.mpr ends))

theorem sound_selfMoveAssign {post : Handle → Multiset Block → Prop} (ends : post this held) :
    (selfMoveAssign this).Sound contents post none held := by
  unfold selfMoveAssign
  split
  · exact Program.sound_pure.mpr ends
  · exact Program.sound_abort

/-- A new buffer comes with its first handle and ends with its terminator. -/
theorem sound_allocate {chars : Text} {post : Block → Multiset Block → Prop}
    (ends : ∀ block, contents block = some (chars ++ [0]) → post block (block ::ₘ held)) :
    (allocate chars).Sound contents post none held := by
  by_cases fits : chars.length < 2 ^ 31
  · rw [allocate, if_pos fits]
    exact ⟨rfl, fun block stored => Program.sound_done.mpr (ends block stored)⟩
  · rw [allocate, if_neg fits]
    exact Program.sound_abort

end AtomicRefCntBuffer

end Sound

end MartCommon.Mba

import MartCommon.Mba.View

namespace MartCommon.Mba

open Library Library.RefCount

/-- The two string classes. `im_zstr` derives from `im_str` and adds no member. -/
inductive Kind where
  | imStr
  | imZstr
  deriving DecidableEq

/-- An `im_str` or `im_zstr` with the members `_view` and `_handle`. -/
structure ImStr where
  kind : Kind
  view : View := {}
  handle : Handle := none
  deriving DecidableEq

/-- `im_str::Split`. -/
inductive Split where
  | drop
  | before
  | after
  deriving DecidableEq

/-- The default constructors. -/
def defaultConstruct : Kind → ImStr
  | .imStr => { kind := .imStr }
  | .imZstr => { kind := .imZstr, view := getEmptyZeroTerminatedStringView }

/-- `im_str( const char ( &other )[N] )` and `im_zstr( const char ( &other )[N] )`. -/
def fromLiteral (kind : Kind) (array : Text) : Prog ImStr := do
  let view ← View.ofArray array
  pure { kind := kind, view := view }

/-- The constructors with `trust_me_this_is_from_a_string_litteral`. A view that is longer than the
object it points into is none. -/
def trustMe (kind : Kind) (array : Text) (size : Nat) : Prog ImStr :=
  if size ≤ array.length then pure { kind := kind, view := ⟨.literal array, 0, size⟩ } else .abort

/-- The destructor. -/
def destroy (this : ImStr) : Prog Unit := decref this.handle

/-- The copy constructor, also where an `im_str` is made from an `im_zstr`. -/
def copyConstruct (kind : Kind) (other : ImStr) : Prog ImStr := do
  let handle ← AtomicRefCntBuffer.copyConstruct other.handle
  pure { kind := kind, view := other.view, handle := handle }

/-- The object that a move leaves behind. -/
def movedFrom (other : ImStr) : ImStr := { other with view := {}, handle := none }

/-- The move constructor, with what it leaves in the other object. -/
def moveConstruct (kind : Kind) (other : ImStr) : ImStr × ImStr :=
  ({ kind := kind, view := other.view, handle := (AtomicRefCntBuffer.moveConstruct other.handle).1 },
    movedFrom other)

/-- `operator=( const im_str& other )`. -/
def copyAssign (this other : ImStr) : Prog ImStr := do
  let handle ← AtomicRefCntBuffer.copyAssign this.handle other.handle
  pure { this with view := other.view, handle := handle }

/-- `operator=( im_str&& other )` from another object, with what it leaves there. -/
def moveAssign (this other : ImStr) : Prog (ImStr × ImStr) := do
  let handles ← AtomicRefCntBuffer.moveAssign this.handle other.handle
  pure ({ this with view := other.view, handle := handles.1 },
    { other with view := {}, handle := handles.2 })

/-- `operator=( im_str&& other )` from the object itself. The view is taken out and put back. -/
def selfMoveAssign (this : ImStr) : Prog ImStr := do
  let handle ← AtomicRefCntBuffer.selfMoveAssign this.handle
  pure { this with handle := handle }

/-- `swap`. -/
def swap (l r : ImStr) : ImStr × ImStr :=
  ({ l with view := r.view, handle := r.handle }, { r with view := l.view, handle := l.handle })

/-- `_copy_from`. The new string moves from a temporary whose handle moved from the allocation. -/
def copyFrom (this : ImStr) (other : Option Text) : Prog ImStr :=
  match other with
  | none => pure { this with view := getEmptyZeroTerminatedStringView }
  | some chars => do
      let block ← AtomicRefCntBuffer.allocate chars
      let temporary : ImStr :=
        { kind := .imStr, view := ⟨.buffer block, 0, chars.length⟩, handle := some block }
      let assigned ← moveAssign this temporary
      destroy assigned.2
      pure assigned.1

/-- `im_str( std::string_view other )` and `im_zstr( std::string_view other )`. The argument is `none`
where its `data()` is null. -/
def fromView : Kind → Option Text → Prog ImStr
  | .imStr, other => copyFrom { kind := .imStr } other
  | .imZstr, other => copyFrom { kind := .imZstr } (some (other.getD []))

/-- `im_str( std::string_view other, alloc )`, which `im_zstr` inherits. The memory resource only decides
where the buffer comes from. -/
def fromViewAlloc (kind : Kind) (other : Option Text) : Prog ImStr := copyFrom { kind := kind } other

/-- `concat`, in its variadic form and in its form for a range. -/
def concat (args : List Text) : Prog ImStr := do
  let block ← AtomicRefCntBuffer.allocate args.flatten
  pure { kind := .imZstr, view := ⟨.buffer block, 0, args.flatten.length⟩, handle := some block }

namespace ImStr

variable (this : ImStr)

/-- `substr( offset, count ) const&`. It is `noexcept`, so that the exception of an offset beyond the
end terminates the program. -/
def substr (offset count : Nat) : Prog ImStr :=
  match this.view.substr offset count with
  | none => .abort
  | some view => do
      let handle ← AtomicRefCntBuffer.copyConstruct this.handle
      pure { kind := .imStr, view := view, handle := handle }

/-- `substr( offset, count ) &&`, with what it leaves behind. Only the handle moves. -/
def substrMove (offset count : Nat) : Prog (ImStr × ImStr) :=
  match this.view.substr offset count with
  | none => .abort
  | some view =>
      let handles := AtomicRefCntBuffer.moveConstruct this.handle
      pure ({ kind := .imStr, view := view, handle := handles.1 },
        { this with handle := handles.2 })

/-- `substr( range )`. The assertion asks for a range inside the view. -/
def substrRange (range : View) : Prog ImStr :=
  if range.storage = this.view.storage ∧ this.view.offset ≤ range.offset ∧
      range.offset + range.size ≤ this.view.offset + this.view.size then do
    let handle ← AtomicRefCntBuffer.copyConstruct this.handle
    pure { kind := .imStr, view := range, handle := handle }
  else .abort

/-- `substr( start, end )` with the distances of the iterators from `begin()`. -/
def substrIterators (start end_ : Nat) : Prog ImStr :=
  if start ≤ end_ then
    this.substrRange ⟨this.view.storage, this.view.offset + start, end_ - start⟩
  else .abort

/-- `substr_sentinel`. -/
def substrSentinel (offset : Nat) (sentinel : UInt8) : Prog ImStr := do
  let chars ← this.view.chars
  this.substr offset (find chars sentinel offset - offset)

/-- A `std::pair` moves its members from two temporaries. -/
def makePair (first second : ImStr) : Prog (ImStr × ImStr) := do
  let members := (moveConstruct .imStr first, moveConstruct .imStr second)
  destroy members.2.2
  destroy members.1.2
  pure (members.1.1, members.2.1)

/-- `{ *this, {} }`. -/
def whole : Prog (ImStr × ImStr) := do
  let first ← copyConstruct .imStr this
  let second ← copyConstruct .imStr (defaultConstruct .imStr)
  pure (first, second)

/-- `split_at( i )`. -/
def splitAt (i : Nat) : Prog (ImStr × ImStr) :=
  if i < this.view.size ∨ i = npos then
    if i = npos then this.whole
    else do
      let first ← this.substr 0 i
      let second ← this.substr i npos
      makePair first second
  else .abort

/-- `split_at( i, s )`. -/
def splitAtMode (i : Nat) (s : Split) : Prog (ImStr × ImStr) :=
  if i < this.view.size ∨ i = npos then
    if i = npos then this.whole
    else do
      let first ← this.substr 0 (i + if s = .after then 1 else 0)
      let second ← this.substr (i + if s = .after ∨ s = .drop then 1 else 0) npos
      makePair first second
  else .abort

/-- `split_on_first`. -/
def splitOnFirst (c : UInt8) (s : Split) : Prog (ImStr × ImStr) := do
  let chars ← this.view.chars
  this.splitAtMode (find chars c 0) s

/-- `split_on_last`. -/
def splitOnLast (c : UInt8) (s : Split) : Prog (ImStr × ImStr) := do
  let chars ← this.view.chars
  this.splitAtMode (rfind chars c) s

/-- The loop of `split_full` over the slices that are still default constructed, from a start position
on. Each slice gets the handle without counting it. It ends with the slices and the last start
position. -/
def splitLoop (chars : Text) (delimiter : UInt8) (s : Split) :
    Nat → Nat → Prog (List ImStr × Nat)
  | 0, startPos => pure ([], startPos)
  | left + 1, startPos =>
      let foundPos := find chars delimiter (sizeT (startPos + if s = .before then 1 else 0))
      let count := sizeT (foundPos + (2 ^ 64 - startPos) + if s = .after then 1 else 0)
      match this.view.substr startPos count with
      | none => .abort
      | some view => do
          let temporary : ImStr := { kind := .imStr, view := view, handle := this.handle }
          let assigned ← moveAssign (defaultConstruct .imStr) temporary
          destroy assigned.2
          let others ← splitLoop chars delimiter s left
            (sizeT (foundPos + if s = .drop ∨ s = .after then 1 else 0))
          pure (assigned.1 :: others.1, others.2)

/-- `split_full`. The slices are counted at once when all of them are made. -/
def splitFull (delimiter : UInt8) (s : Split) : Prog (List ImStr) :=
  if this.view.size = 0 then pure []
  else do
    let chars ← this.view.chars
    let splitCnt := 1 + chars.count delimiter
    let slices ← this.splitLoop chars delimiter s splitCnt 0
    if slices.2 = sizeT (npos + if s = .drop ∨ s = .after then 1 else 0) then do
      addRefCnt this.handle splitCnt
      pure slices.1
    else .abort

/-- `im_str::is_zero_terminated`. -/
def isZeroTerminated : Prog Bool := do
  let char ← this.view.charAt this.view.size
  pure (char = 0)

/-- `unshare`. -/
def unshare : Prog ImStr := do
  let chars ← this.view.chars
  fromView .imZstr (if this.view.storage = .null then none else some chars)

/-- `create_zstr() const&`. -/
def createZstr : Prog ImStr := do
  let terminated ← this.isZeroTerminated
  if terminated then copyConstruct .imZstr this else this.unshare

/-- `create_zstr() &&`, with what it leaves behind. -/
def createZstrMove : Prog (ImStr × ImStr) := do
  let terminated ← this.isZeroTerminated
  if terminated then pure (moveConstruct .imZstr this)
  else do
    let created ← this.unshare
    pure (created, this)

end ImStr

end MartCommon.Mba

import MartCommon.Library.RefCountMachine
import MartCommon.Mba.ImStr

namespace MartCommon.Mba

open Library Library.RefCount

/-- The public operations on objects under their names. A constructor or a function that returns
strings names its class, its arguments and the objects it reads; the names of the new objects come
with its end. -/
inductive Operation (Slot : Type) where
  | defaultConstruct (kind : Kind)
  | fromLiteral (kind : Kind) (array : Text)
  | trustMe (kind : Kind) (array : Text) (size : Nat)
  | fromView (kind : Kind) (other : Option Text)
  | fromViewAlloc (kind : Kind) (other : Option Text)
  | concat (args : List Text)
  | copyConstruct (kind : Kind) (other : Slot)
  | moveConstruct (kind : Kind) (other : Slot)
  | copyAssign (this other : Slot)
  | moveAssign (this other : Slot)
  | swap (l r : Slot)
  | substr (this : Slot) (offset count : Nat)
  | substrMove (this : Slot) (offset count : Nat)
  | substrRange (this : Slot) (range : View)
  | substrIterators (this : Slot) (start end_ : Nat)
  | substrSentinel (this : Slot) (offset : Nat) (sentinel : UInt8)
  | splitAt (this : Slot) (i : Nat)
  | splitAtMode (this : Slot) (i : Nat) (s : Split)
  | splitOnFirst (this : Slot) (c : UInt8) (s : Split)
  | splitOnLast (this : Slot) (c : UInt8) (s : Split)
  | splitFull (this : Slot) (delimiter : UInt8) (s : Split)
  | unshare (this : Slot)
  | createZstr (this : Slot)
  | createZstrMove (this : Slot)
  | destroy (this : Slot)

variable {Slot : Type} [DecidableEq Slot]

/-- The objects that an operation reads or writes. -/
def Operation.sources : Operation Slot → List Slot
  | .defaultConstruct _ => []
  | .fromLiteral _ _ => []
  | .trustMe _ _ _ => []
  | .fromView _ _ => []
  | .fromViewAlloc _ _ => []
  | .concat _ => []
  | .copyConstruct _ other => [other]
  | .moveConstruct _ other => [other]
  | .copyAssign this other => if this = other then [this] else [this, other]
  | .moveAssign this other => if this = other then [this] else [this, other]
  | .swap l r => if l = r then [l] else [l, r]
  | .substr this _ _ => [this]
  | .substrMove this _ _ => [this]
  | .substrRange this _ => [this]
  | .substrIterators this _ _ => [this]
  | .substrSentinel this _ _ => [this]
  | .splitAt this _ => [this]
  | .splitAtMode this _ _ => [this]
  | .splitOnFirst this _ _ => [this]
  | .splitOnLast this _ _ => [this]
  | .splitFull this _ _ => [this]
  | .unshare this => [this]
  | .createZstr this => [this]
  | .createZstrMove this => [this]
  | .destroy this => [this]

/-- An `im_str` takes any string, an `im_zstr` only an `im_zstr`. -/
def Kind.takes (kind : Kind) (other : ImStr) : Bool := kind = .imStr || other.kind = .imZstr

section Outcomes

/-- The strings that a constructor or a factory makes. -/
def creates (created : Prog ImStr) : Prog (Outcome ImStr) := do
  let object ← created
  pure { created := [object] }

/-- The string that a function makes from another one. -/
def creates1 (this : ImStr) (created : Prog ImStr) : Prog (Outcome ImStr) := do
  let object ← created
  pure { kept := [some this], created := [object] }

/-- The string that a function makes from another one and what it leaves there. -/
def createsMoved (created : Prog (ImStr × ImStr)) : Prog (Outcome ImStr) := do
  let objects ← created
  pure { kept := [some objects.2], created := [objects.1] }

/-- The two strings that a function makes from another one. -/
def createsPair (this : ImStr) (created : Prog (ImStr × ImStr)) : Prog (Outcome ImStr) := do
  let objects ← created
  pure { kept := [some this], created := [objects.1, objects.2] }

/-- The array of strings that a function makes from another one. -/
def createsAll (this : ImStr) (created : Prog (List ImStr)) : Prog (Outcome ImStr) := do
  let objects ← created
  pure { kept := [some this], created := objects }

end Outcomes

section Arity

variable (objects : List ImStr)

/-- The program of an operation without a source. -/
def onNone (program : Prog (Outcome ImStr)) : Option (Prog (Outcome ImStr)) :=
  match objects with
  | [] => some program
  | _ => none

/-- The program of an operation on one source. -/
def onOne (program : ImStr → Option (Prog (Outcome ImStr))) : Option (Prog (Outcome ImStr)) :=
  match objects with
  | [this] => program this
  | _ => none

/-- The program of an operation on two sources. -/
def onTwo (program : ImStr → ImStr → Option (Prog (Outcome ImStr))) :
    Option (Prog (Outcome ImStr)) :=
  match objects with
  | [this, other] => program this other
  | _ => none

variable {objects} {program : Prog (Outcome ImStr)}

theorem onNone_eq_some {body : Prog (Outcome ImStr)} :
    onNone objects body = some program ↔ objects = [] ∧ body = program := by
  unfold onNone
  split <;> simp_all

theorem onOne_eq_some {body : ImStr → Option (Prog (Outcome ImStr))} :
    onOne objects body = some program ↔ ∃ this, objects = [this] ∧ body this = some program := by
  unfold onOne
  split <;> simp_all

theorem onTwo_eq_some {body : ImStr → ImStr → Option (Prog (Outcome ImStr))} :
    onTwo objects body = some program ↔
      ∃ this other, objects = [this, other] ∧ body this other = some program := by
  unfold onTwo
  split <;> simp_all

/-- A program that is offered under a condition. -/
theorem ite_some {condition : Prop} [Decidable condition] {body : Prog (Outcome ImStr)} :
    (if condition then some body else none) = some program ↔ condition ∧ body = program := by
  rw [Option.ite_none_right_eq_some, Option.some.injEq]

end Arity

/-- The program of an operation on its objects. There is none where the classes do not fit. -/
def Operation.body (operation : Operation Slot) (objects : List ImStr) :
    Option (Prog (Outcome ImStr)) :=
  match operation with
  | .defaultConstruct kind => onNone objects (creates (pure (Mba.defaultConstruct kind)))
  | .fromLiteral kind array => onNone objects (creates (Mba.fromLiteral kind array))
  | .trustMe kind array size => onNone objects (creates (Mba.trustMe kind array size))
  | .fromView kind other => onNone objects (creates (Mba.fromView kind other))
  | .fromViewAlloc kind other => onNone objects (creates (Mba.fromViewAlloc kind other))
  | .concat args => onNone objects (creates (Mba.concat args))
  | .copyConstruct kind _ => onOne objects fun other =>
      if kind.takes other then some (creates1 other (Mba.copyConstruct kind other)) else none
  | .moveConstruct kind _ => onOne objects fun other =>
      if kind.takes other then some (createsMoved (pure (Mba.moveConstruct kind other))) else none
  | .copyAssign this other =>
      if this = other then
        onOne objects fun this => some do
          let assigned ← Mba.copyAssign this this
          pure { kept := [some assigned] }
      else
        onTwo objects fun this other =>
          if this.kind.takes other then some do
            let assigned ← Mba.copyAssign this other
            pure { kept := [some assigned, some other] }
          else none
  | .moveAssign this other =>
      if this = other then
        onOne objects fun this => some do
          let assigned ← Mba.selfMoveAssign this
          pure { kept := [some assigned] }
      else
        onTwo objects fun this other =>
          if this.kind.takes other then some do
            let assigned ← Mba.moveAssign this other
            pure { kept := [some assigned.1, some assigned.2] }
          else none
  | .swap l r =>
      if l = r then onOne objects fun l => some (pure { kept := [some (Mba.swap l l).1] })
      else
        onTwo objects fun l r =>
          if l.kind = r.kind then
            some (pure { kept := [some (Mba.swap l r).1, some (Mba.swap l r).2] })
          else none
  | .substr _ offset count => onOne objects fun this =>
      some (creates1 this (this.substr offset count))
  | .substrMove _ offset count => onOne objects fun this =>
      some (createsMoved (this.substrMove offset count))
  | .substrRange _ range => onOne objects fun this => some (creates1 this (this.substrRange range))
  | .substrIterators _ start end_ => onOne objects fun this =>
      some (creates1 this (this.substrIterators start end_))
  | .substrSentinel _ offset sentinel => onOne objects fun this =>
      some (creates1 this (this.substrSentinel offset sentinel))
  | .splitAt _ i => onOne objects fun this => some (createsPair this (this.splitAt i))
  | .splitAtMode _ i s => onOne objects fun this => some (createsPair this (this.splitAtMode i s))
  | .splitOnFirst _ c s => onOne objects fun this => some (createsPair this (this.splitOnFirst c s))
  | .splitOnLast _ c s => onOne objects fun this => some (createsPair this (this.splitOnLast c s))
  | .splitFull _ delimiter s => onOne objects fun this =>
      some (createsAll this (this.splitFull delimiter s))
  | .unshare _ => onOne objects fun this => some (creates1 this this.unshare)
  | .createZstr _ => onOne objects fun this => some (creates1 this this.createZstr)
  | .createZstrMove _ => onOne objects fun this => some (createsMoved this.createZstrMove)
  | .destroy _ => onOne objects fun this => some do
      Mba.destroy this
      pure { kept := [none] }

/-- The strings as objects that share counted buffers. -/
def strings (Slot : Type) [DecidableEq Slot] : Interface Text ImStr (Operation Slot) Slot where
  sources := Operation.sources
  body := Operation.body
  handles object := object.handle.tokens

end MartCommon.Mba

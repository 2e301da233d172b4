import MartCommon.Library.RefCountAtomic
import MartCommon.Mba.Operations
import MartCommon.Mba.SplitOn

namespace MartCommon.Mba

open Library Library.RefCount

variable {Slot : Type} [DecidableEq Slot]

/-- What a string is to its users: a class and the characters. -/
structure StrValue where
  kind : Kind
  text : Text
  deriving DecidableEq

namespace StrValue

variable (this : StrValue)

/-- The string stays, and its parts are new strings. -/
def gives (parts : List Text) : Outcome StrValue :=
  { kept := [some this], created := parts.map fun part => ⟨.imStr, part⟩ }

/-- The string stays or is emptied, and an `im_zstr` has its characters. -/
def givesZstr (left : Text) : Outcome StrValue :=
  { kept := [some { this with text := left }], created := [⟨.imZstr, this.text⟩] }

/-- `substr` gives the characters from an offset on that the length allows. -/
def Substr (offset count : Nat) (result : Outcome StrValue) : Prop :=
  offset ≤ this.text.length ∧ result = this.gives [(this.text.drop offset).take count]

/-- A split at a position gives the halves there, or all characters where the position is `npos`. -/
def SplitAt (i : Nat) (s : Split) (result : Outcome StrValue) : Prop :=
  i < this.text.length ∧ result = this.gives [(s.halves this.text i).1, (s.halves this.text i).2] ∨
    i = npos ∧ result = this.gives [this.text, []]

/-- A split on a character gives the halves at the chosen one, or all characters where there is none. -/
def SplitOn (c : UInt8) (s : Split) (chosen : Nat → Prop) (result : Outcome StrValue) : Prop :=
  c ∉ this.text ∧ result = this.gives [this.text, []] ∨
    ∃ i, this.text[i]? = some c ∧ chosen i ∧
      result = this.gives [(s.halves this.text i).1, (s.halves this.text i).2]

end StrValue

/-- The pieces that `split_full` makes of a text. With its delimiter in front, a text does not begin with
one. With its delimiter at the end, a text without one is lost. -/
def Split.Pieces (s : Split) (delimiter : UInt8) (text : Text) (pieces : List Text) : Prop :=
  if text = [] then pieces = []
  else
    match s with
    | .drop => CutOut delimiter text pieces
    | .before => text.head? ≠ some delimiter ∧ CutBefore delimiter text pieces
    | .after => if delimiter ∈ text then CutAfter delimiter text pieces else pieces = [[]]

/-- An operation on one value. -/
def OfOne (values : List StrValue) (means : StrValue → Prop) : Prop :=
  ∃ this, values = [this] ∧ means this

/-- An operation on two values. -/
def OfTwo (values : List StrValue) (means : StrValue → StrValue → Prop) : Prop :=
  ∃ this other, values = [this, other] ∧ means this other

/-- What the operations do to values of their own, where no two strings share anything. -/
def Operation.Meaning (operation : Operation Slot) (values : List StrValue)
    (result : Outcome StrValue) : Prop :=
  match operation with
  | .defaultConstruct kind => result = { created := [⟨kind, []⟩] }
  | .fromLiteral kind array => result = { created := [⟨kind, array.takeWhile (· ≠ 0)⟩] }
  | .trustMe kind array size =>
      size ≤ array.length ∧ result = { created := [⟨kind, array.take size⟩] }
  | .fromView kind other => result = { created := [⟨kind, other.getD []⟩] }
  | .fromViewAlloc kind other => result = { created := [⟨kind, other.getD []⟩] }
  | .concat args => result = { created := [⟨.imZstr, args.flatten⟩] }
  | .copyConstruct kind _ => OfOne values fun other =>
      result = { kept := [some other], created := [⟨kind, other.text⟩] }
  | .moveConstruct kind _ => OfOne values fun other =>
      result = { kept := [some { other with text := [] }], created := [⟨kind, other.text⟩] }
  | .copyAssign this other =>
      if this = other then OfOne values fun this => result = { kept := [some this] }
      else OfTwo values fun this other =>
        result = { kept := [some { this with text := other.text }, some other] }
  | .moveAssign this other =>
      if this = other then OfOne values fun this => result = { kept := [some this] }
      else OfTwo values fun this other =>
        result = { kept := [some { this with text := other.text }, some { other with text := [] }] }
  | .swap l r =>
      if l = r then OfOne values fun l => result = { kept := [some l] }
      else OfTwo values fun l r =>
        result = { kept := [some { l with text := r.text }, some { r with text := l.text }] }
  | .substr _ offset count => OfOne values fun this => this.Substr offset count result
  | .substrMove _ offset count => OfOne values fun this => this.Substr offset count result
  | .substrRange _ range => OfOne values fun this =>
      ∃ offset, offset + range.size ≤ this.text.length ∧ this.Substr offset range.size result
  | .substrIterators _ start end_ => OfOne values fun this =>
      start ≤ end_ ∧ end_ ≤ this.text.length ∧ this.Substr start (end_ - start) result
  | .substrSentinel _ offset sentinel => OfOne values fun this =>
      offset ≤ this.text.length ∧
        result = this.gives [(this.text.drop offset).takeWhile (· ≠ sentinel)]
  | .splitAt _ i => OfOne values fun this => this.SplitAt i .before result
  | .splitAtMode _ i s => OfOne values fun this => this.SplitAt i s result
  | .splitOnFirst _ c s => OfOne values fun this =>
      this.SplitOn c s (fun i => c ∉ this.text.take i) result
  | .splitOnLast _ c s => OfOne values fun this =>
      this.SplitOn c s (fun i => c ∉ this.text.drop (i + 1)) result
  | .splitFull _ delimiter s => OfOne values fun this =>
      ∃ pieces, s.Pieces delimiter this.text pieces ∧ result = this.gives pieces
  | .unshare _ => OfOne values fun this => result = this.givesZstr this.text
  | .createZstr _ => OfOne values fun this => result = this.givesZstr this.text
  | .createZstrMove _ => OfOne values fun this =>
      result = this.givesZstr this.text ∨ result = this.givesZstr []
  | .destroy _ => OfOne values fun _ => result = { kept := [none] }

/-- A string depicts a value when it has its class and its view shows the characters. -/
structure ImStr.Is (contents : Block → Option Text) (object : ImStr) (value : StrValue) : Prop where
  kind : object.kind = value.kind
  shown : object.view.Shows contents value.text

/-- The results of an operation are those of its meaning. -/
abbrev Ended (contents : Block → Option Text) (meaning : Outcome StrValue → Prop)
    (outcome : Outcome ImStr) : Prop :=
  ∃ result, meaning result ∧ Shown (ImStr.Is contents) outcome result

end MartCommon.Mba

import MartCommon.Common.StringView
import MartCommon.Netlib.ByteOrder

namespace MartCommon.Experimental.Ip

open Library Common
open Netlib (ByteOrder NetInt toNetOrder toHostOrder)

namespace ImplPortV4

def hasWrongLength (str : Text) : Bool := str.length > 4 * 3 + 3 || str.isEmpty

def hasInvalidChar (str : Text) : Bool := str.any fun c => !Decimal.isDigit c

end ImplPortV4

structure PortNr where
  p : NetInt 16 := ⟨0⟩
  deriving DecidableEq, Repr

/-- `port_nr( uint16_host_t )` -/
def PortNr.ofHost (order : ByteOrder) (value : BitVec 16) : PortNr := ⟨toNetOrder order value⟩

def PortNr.inHostOrder (order : ByteOrder) (port : PortNr) : BitVec 16 := toHostOrder order port.p

def parseV4Port (order : ByteOrder) (string : Text) : Option PortNr :=
  if ImplPortV4.hasWrongLength string || ImplPortV4.hasInvalidChar string then none
  else
    let parsed := toIntegralUnsafe .uint32 string
    if parsed > 65535 then none else some (.ofHost order (BitVec.ofInt 16 parsed))

/-- One to fifteen digits -/
structure IsNumber (text : Text) : Prop where
  nonempty : 1 ≤ text.length
  short : text.length ≤ 15
  digits : ∀ char ∈ text, Decimal.isDigit char = true

/-- The text of a port, as a number. -/
def IsPort (text : Text) : Prop := IsNumber text ∧ Decimal.value text ≤ 65535

/-- The parser gives the value of the text of a port, and nothing for any other text. -/
structure Parses (order : ByteOrder) (text : Text) : Prop where
  accepts : IsPort text →
    ∃ port, parseV4Port order text = some port ∧ (port.inHostOrder order).toNat = Decimal.value text
  rejects : ¬ IsPort text → parseV4Port order text = none

/-- A number above the ports wraps around to one of them in 32 bits. -/
def WrapsToPort (text : Text) : Prop :=
  IsNumber text ∧ 65535 < Decimal.value text ∧ Decimal.value text % 2 ^ 32 ≤ 65535

variable {order : ByteOrder} {text : Text}

theorem inHostOrder_ofHost (order : ByteOrder) (value : BitVec 16) :
    (PortNr.ofHost order value).inHostOrder order = value :=
  Netlib.toHostOrder_toNetOrder 1 rfl order value

/-- The filters let the numbers pass. -/
theorem passes_iff :
    (ImplPortV4.hasWrongLength text || ImplPortV4.hasInvalidChar text) = false ↔ IsNumber text := by
  have length : ImplPortV4.hasWrongLength text = false ↔ 1 ≤ text.length ∧ text.length ≤ 15 := by
    rw [ImplPortV4.hasWrongLength, Bool.or_eq_false_iff, decide_eq_false_iff_not,
      List.isEmpty_eq_false_iff, ← List.length_pos_iff]
    omega
  have digits : ImplPortV4.hasInvalidChar text = false ↔ ∀ char ∈ text, Decimal.isDigit char = true := by
    simp [ImplPortV4.hasInvalidChar]
  rw [Bool.or_eq_false_iff, length, digits]
  constructor
  · intro both
    exact ⟨both.1.1, both.1.2, both.2⟩
  · intro number
    exact ⟨⟨number.nonempty, number.short⟩, number.digits⟩

/-- A number is parsed modulo `2 ^ 32`. -/
theorem parseV4Port_number (number : IsNumber text) :
    parseV4Port order text =
      if Decimal.value text % 2 ^ 32 ≤ 65535 then
        some (.ofHost order (BitVec.ofNat 16 (Decimal.value text % 2 ^ 32)))
      else none := by
  have parsed : toIntegralUnsafe .uint32 text = (Decimal.value text % 2 ^ 32 : Nat) :=
    toIntegralUnsafe_digits rfl (by decide) number.digits
  simp only [parseV4Port, passes_iff.mpr number, parsed, Bool.false_eq_true, if_false]
  by_cases small : Decimal.value text % 2 ^ 32 ≤ 65535
  · rw [if_neg (by omega), if_pos small, BitVec.ofInt_natCast]
  · rw [if_pos (by omega), if_neg small]

theorem parseV4Port_other (other : ¬ IsNumber text) : parseV4Port order text = none := by
  rw [← passes_iff, Bool.not_eq_false] at other
  rw [parseV4Port, if_pos other]

/-- The value of a port does not wrap around. -/
theorem parseV4Port_port (port : IsPort text) :
    parseV4Port order text = some (.ofHost order (BitVec.ofNat 16 (Decimal.value text))) := by
  obtain ⟨number, small⟩ := port
  have same : Decimal.value text % 2 ^ 32 = Decimal.value text := Nat.mod_eq_of_lt (by omega)
  rw [parseV4Port_number number, same, if_pos small]

theorem parses_iff : Parses order text ↔ (¬ IsPort text → parseV4Port order text = none) := by
  constructor
  · exact Parses.rejects
  · intro rejects
    refine ⟨fun port => ⟨_, parseV4Port_port port, ?_⟩, rejects⟩
    obtain ⟨-, small⟩ := port
    rw [inHostOrder_ofHost, BitVec.toNat_ofNat, Nat.mod_eq_of_lt (by omega)]

/-- The parser does what is expected for every text but the numbers that wrap around to a port. -/
theorem parseV4Port_parses_iff (order : ByteOrder) (text : Text) :
    Parses order text ↔ ¬ WrapsToPort text := by
  rw [parses_iff]
  constructor
  · intro rejects wraps
    obtain ⟨number, large, small⟩ := wraps
    have refused := rejects fun port => absurd port.2 (by omega)
    rw [parseV4Port_number number, if_pos small] at refused
    contradiction
  · intro stays other
    by_cases number : IsNumber text
    · have large : 65535 < Decimal.value text := by
        by_contra small
        exact other ⟨number, by omega⟩
      rw [parseV4Port_number number, if_neg]
      exact fun small => stays ⟨number, large, small⟩
    · exact parseV4Port_other number

/-- The number `2 ^ 32` is parsed as port 0. -/
theorem parseV4Port_wraps : ¬ ∀ text, Parses .littleEndian text := by
  intro always
  have refused := (always (ascii "4294967296")).rejects fun port => absurd port.2 (by decide)
  exact absurd refused (by decide)

end MartCommon.Experimental.Ip

import MartCommon.Common.ToIntegral
import MartCommon.Experimental.Ip
import MartCommon.Library.CString
import MartCommon.Netlib.EndpointGrammar

namespace MartCommon.Experimental.Ip

open Library Common
open Netlib (ByteOrder NetInt toNetOrder)
open Netlib.Ip (colon concat dot Parts)

/-- The exceptions `mart::InvalidArgument`, `std::invalid_argument` and `std::out_of_range`. -/
inductive ParseError where
  | invalidArgument (message : Text)
  | stdInvalidArgument (message : Text)
  | outOfRange (message : Text)
  deriving DecidableEq, Repr

namespace ImplAddrV4

def hasWrongLength (str : Text) : Bool := str.length > 4 * 3 + 3 || str.length < 4 + 3

/-- `mart::find_if` ends at the end of the text where no character is invalid. -/
def hasInvalidChar (str : Text) : Bool :=
  str.length != str.findIdx fun c => !(Decimal.isDigit c || c == dot)

/-- `mart::count` -/
def count (str : Text) (value : UInt8) : Int :=
  str.foldl (fun cnt c => cnt + if c == value then 1 else 0) 0

def hasWrongBlockCount (str : Text) : Bool := count str dot != 3

def isMalformed (str : Text) : Bool :=
  hasWrongLength str || hasInvalidChar str || hasWrongBlockCount str

def parseBlock (block : Text) : Option (BitVec 32) :=
  if block.length > 3 then none
  else
    let num := toIntegralUnsafe .uint32 block
    if num > 255 then none else some (BitVec.ofInt 32 num)

/-- `substr( start, length )` of a `std::string_view` throws for a start behind the end. -/
def substr (str : Text) (start length : Nat) (_inside : start ≤ str.length) : Text :=
  (str.drop start).take length

/-- The locals of `split_blocks_unchecked`. No block starts behind the end of the text. -/
structure SplitState (str : Text) where
  ret : List Text := List.replicate 4 []
  cnt : Nat := 0
  start : Nat := 0
  inside : start ≤ str.length := by simp

/-- One turn of the loop. Its callers make sure that `cnt` stays below four. -/
def splitStep (str : Text) (state : SplitState str) (pos : Fin str.length) : SplitState str :=
  if str.get pos = dot then
    { ret := state.ret.set state.cnt (substr str state.start (pos - state.start) state.inside)
      cnt := state.cnt + 1
      start := pos + 1
      inside := pos.isLt }
  else state

def splitBlocksUnchecked (str : Text) : List Text :=
  let state := (List.finRange str.length).foldl (splitStep str) {}
  state.ret.set 3 (substr str state.start str.length state.inside)

/-- The loop of `parse_address` over the blocks. -/
def accumulate : BitVec 32 → List Text → Option (BitVec 32)
  | accum, [] => some accum
  | accum, block :: rest =>
      match parseBlock block with
      | none => none
      | some v => accumulate (accum <<< 8 ||| v) rest

def parseAddress (string : Text) : Option (BitVec 32) :=
  if isMalformed string then none else accumulate 0 (splitBlocksUnchecked string)

end ImplAddrV4

structure AddressV4 where
  addr : NetInt 32 := ⟨0⟩
  deriving DecidableEq, Repr

namespace AddressV4

/-- `address_v4( uint32_host_t )` -/
def ofHost (order : ByteOrder) (addrH : BitVec 32) : AddressV4 := ⟨toNetOrder order addrH⟩

def parseIpV4String (str : Text) : Except ParseError (BitVec 32) :=
  match ImplAddrV4.parseAddress str with
  | none => .error (.invalidArgument (concat [ascii "Could not parse string \"", str,
      ascii "\" - IP-Addess must have format a.b.c.d. "]))
  | some res => .ok res

/-- `address_v4( std::string_view )` -/
def ofString (order : ByteOrder) (str : Text) : Except ParseError AddressV4 :=
  (parseIpV4String str).map (ofHost order)

end AddressV4

def parseV4Address (order : ByteOrder) (string : Text) : Option AddressV4 :=
  match ImplAddrV4.parseAddress string with
  | some res => some (.ofHost order res)
  | none => none

structure BasicEndpointV4 where
  address : AddressV4 := {}
  port : PortNr := {}
  valid : Bool := false
  deriving DecidableEq, Repr

/-- `StringView::split( size_t )` at a position that `find` returned. -/
def splitAt (str : Text) (pos : Option Nat) : Text × Text :=
  match pos with
  | none => (str, [])
  | some pos =>
      if pos = str.length then (str, [])
      else (str.take pos, (str.drop (pos + 1)).take (str.length - pos - 1))

namespace BasicEndpointV4

/-- The texts of the address and the port that the constructor from a text takes. The message of the exception
ends at the first zero character, as it goes through `c_str`. -/
def addrPortPair (str : Text) : Except ParseError (Text × Text) :=
  let ps := splitAt str (str.findIdx? (· == colon))
  if ps.2.length < 1 then
    .error (.stdInvalidArgument (CString.characters (concat [ascii "Creating ipv4 endpoint from string \"", str,
      ascii "\" Failed. Addess must have format a.b.c.d:p - colon or p is missing"])))
  else .ok ps

/-- The port that the constructor from a text makes of the second part, with the name that `typeid` gives
`int`. It has no result where the arithmetic of `to_integral` is undefined. -/
def portOf (int : Text) (order : ByteOrder) (strv second : Text) : Option (Except ParseError PortNr) :=
  (ToIntegral.toIntegral IntType.result (.integer ToIntegral.intType) int second).map fun parsed =>
    match parsed with
    | .error message => .error (.outOfRange message)
    | .ok parsedPortNr =>
        if parsedPortNr < 0 ∨ 65535 < parsedPortNr then
          .error (.stdInvalidArgument (concat [ascii "Creating ipv4 endpoint from string \"", strv,
            ascii "\" Failed. Portnumber was parsed as <", Decimal.renderInt parsedPortNr,
            ascii "> which exeds the allowed range of [0..65535]"]))
        else .ok (.ofHost order (BitVec.ofInt 16 parsedPortNr))

/-- `basic_endpoint_v4( std::string_view )` -/
def ofString (int : Text) (order : ByteOrder) (strv : Text) : Option (Except ParseError BasicEndpointV4) :=
  match addrPortPair strv with
  | .error error => some (.error error)
  | .ok pair =>
      match AddressV4.ofString order pair.1 with
      | .error error => some (.error error)
      | .ok address => (portOf int order strv pair.2).map fun answer => answer.map (⟨address, ·, true⟩)

end BasicEndpointV4

def parseV4Endpoint (order : ByteOrder) (str : Text) : Option BasicEndpointV4 :=
  let ps := split str colon
  match parseV4Address order ps.1 with
  | none => none
  | some address =>
      match parseV4Port order ps.2 with
      | none => none
      | some port => some ⟨address, port, true⟩

/-- An endpoint of mart-netlib as one of the older classes. -/
def BasicEndpointV4.ofNetlib (endpoint : Netlib.Ip.BasicEndpointV4Base) : BasicEndpointV4 :=
  ⟨⟨endpoint.address.addr⟩, ⟨endpoint.port.p⟩, endpoint.valid⟩

/-- The number of the digits in front of a text. -/
def front (text : Text) : Nat := Decimal.value (text.takeWhile Decimal.isDigit)

/-- The number in front of a text, behind a sign. -/
def signed (text : Text) : Int :=
  if text.head? = some 45 then -front (text.drop 1)
  else if text.head? = some 43 then front (text.drop 1)
  else front text

variable {order : ByteOrder} {str text : Text}

/-- The position that `find` returned is inside, so that both ways to split do the same. -/
theorem splitAt_find (str : Text) : splitAt str (str.findIdx? (· == colon)) = split str colon := by
  unfold splitAt split
  cases found : str.findIdx? (· == colon) with
  | none => rfl
  | some pos =>
      have inside : pos ≠ str.length := by
        have bound := (List.findIdx?_eq_some_iff_getElem.mp found).1
        omega
      dsimp only
      rw [if_neg inside]

/-- The loop of `mart::count` adds to what it has. -/
theorem count_foldl (value : UInt8) (cnt : Int) :
    str.foldl (fun cnt c => cnt + if c == value then 1 else 0) cnt = cnt + str.count value := by
  induction str generalizing cnt with
  | nil => simp
  | cons c rest ih =>
      rw [List.foldl_cons, ih, List.count_cons]
      split
      · push_cast
        omega
      · simp

/-- Both copies refuse the same texts. -/
theorem isMalformed_eq (str : Text) :
    ImplAddrV4.isMalformed str = Netlib.Ip.ImplAddrV4.isMalformed str := by
  have invalid : ImplAddrV4.hasInvalidChar str = Netlib.Ip.ImplAddrV4.hasInvalidChar str := by
    have inside : str.findIdx (fun c => !(Decimal.isDigit c || c == dot)) ≤ str.length :=
      List.findIdx_le_length
    rw [Bool.eq_iff_iff, ImplAddrV4.hasInvalidChar, Netlib.Ip.ImplAddrV4.hasInvalidChar, List.any_eq_true,
      bne_iff_ne, ← List.findIdx_lt_length]
    omega
  have counts : ImplAddrV4.hasWrongBlockCount str = Netlib.Ip.ImplAddrV4.hasWrongBlockCount str := by
    rw [Bool.eq_iff_iff, ImplAddrV4.hasWrongBlockCount, Netlib.Ip.ImplAddrV4.hasWrongBlockCount,
      ImplAddrV4.count, count_foldl, bne_iff_ne, bne_iff_ne]
    omega
  rw [ImplAddrV4.isMalformed, invalid, counts]
  rfl

/-- The locals without the fact that they are inside. -/
def ImplAddrV4.SplitState.locals (state : ImplAddrV4.SplitState str) : Netlib.Ip.ImplAddrV4.SplitState :=
  ⟨state.ret, state.cnt, state.start⟩

theorem splitStep_locals (state : ImplAddrV4.SplitState str) (pos : Fin str.length) :
    (ImplAddrV4.splitStep str state pos).locals =
      Netlib.Ip.ImplAddrV4.splitStep str state.locals pos := by
  rw [ImplAddrV4.splitStep, Netlib.Ip.ImplAddrV4.splitStep, List.getElem?_eq_getElem pos.isLt]
  simp only [Option.some.injEq, List.get_eq_getElem]
  split <;> rfl

theorem foldl_locals (positions : List (Fin str.length)) (state : ImplAddrV4.SplitState str) :
    (positions.foldl (ImplAddrV4.splitStep str) state).locals =
      (positions.map Fin.val).foldl (Netlib.Ip.ImplAddrV4.splitStep str) state.locals := by
  induction positions generalizing state with
  | nil => rfl
  | cons pos rest ih => rw [List.foldl_cons, List.map_cons, List.foldl_cons, ih, splitStep_locals]

/-- Both copies cut out the same blocks. -/
theorem splitBlocksUnchecked_eq (str : Text) :
    ImplAddrV4.splitBlocksUnchecked str = Netlib.Ip.ImplAddrV4.splitBlocksUnchecked str := by
  have positions : (List.finRange str.length).map Fin.val = List.range' 0 str.length :=
    List.ext_getElem (by simp) (by simp)
  have scanned : ((List.finRange str.length).foldl (ImplAddrV4.splitStep str) {}).locals =
      (List.range' 0 str.length).foldl (Netlib.Ip.ImplAddrV4.splitStep str) {} := by
    rw [foldl_locals, positions]
    rfl
  have rest : ∀ start : Nat, (str.drop start).take str.length = Netlib.Ip.ImplAddrV4.substrFrom str start := by
    intro start
    rw [Netlib.Ip.ImplAddrV4.substrFrom, Netlib.Ip.ImplAddrV4.substr, List.take_of_length_le (by simp),
      List.take_of_length_le (by simp)]
  rw [ImplAddrV4.splitBlocksUnchecked, Netlib.Ip.ImplAddrV4.splitBlocksUnchecked, ← scanned]
  exact congrArg _ (rest _)

/-- `parse_address` is a copy of the one in mart-netlib. -/
theorem parseAddress_eq (string : Text) :
    ImplAddrV4.parseAddress string = Netlib.Ip.ImplAddrV4.parseAddress string := by
  have accumulates : ∀ (accum : BitVec 32) (blocks : List Text),
      ImplAddrV4.accumulate accum blocks = Netlib.Ip.ImplAddrV4.accumulate accum blocks := by
    intro accum blocks
    induction blocks generalizing accum with
    | nil => rfl
    | cons block rest ih =>
        simp only [ImplAddrV4.accumulate, Netlib.Ip.ImplAddrV4.accumulate, ih]
        rfl
  rw [ImplAddrV4.parseAddress, isMalformed_eq, splitBlocksUnchecked_eq, accumulates]
  rfl

theorem parseV4Address_eq_some_iff {address : AddressV4} :
    parseV4Address order str = some address ↔
      Netlib.Ip.tryParseV4Address order str = some ⟨address.addr⟩ := by
  rw [parseV4Address, parseAddress_eq, Netlib.Ip.tryParseV4Address]
  cases Netlib.Ip.ImplAddrV4.parseAddress str with
  | none => simp
  | some res =>
      simp only [Option.some.injEq, AddressV4.ofHost, Netlib.Ip.AddressV4.ofHost, Netlib.Ip.AddressV4.mk.injEq]
      exact ⟨fun same => same ▸ rfl, fun same => by rw [same]⟩

theorem address_ofString_eq_ok_iff {address : AddressV4} :
    AddressV4.ofString order str = .ok address ↔ parseV4Address order str = some address := by
  rw [AddressV4.ofString, AddressV4.parseIpV4String, parseV4Address]
  cases ImplAddrV4.parseAddress str <;> simp [Except.map]

/-- `core` reads the digits in front of a text. -/
theorem core_front (name text : Text) :
    ToIntegral.core IntType.result (.integer ToIntegral.intType) name text =
      some (ToIntegral.answer (.integer ToIntegral.intType) name text (front text)) :=
  ToIntegral.coreLoop_eq ToIntegral.correct_result ToIntegral.intType (by decide)

/-- The answer of `core` is a port where its number is one. -/
theorem answer_port {name : Text} {digits : Nat} {number : Int} (small : number ≤ 65535) :
    ToIntegral.answer (.integer ToIntegral.intType) name text digits = .ok number ↔ (digits : Int) = number := by
  by_cases fits : (digits : Int) ≤ 2147483647
  · rw [ToIntegral.answer_fits fits, Except.ok.injEq]
  · rw [ToIntegral.answer_large (Int.not_le.mp fits)]
    refine iff_of_false (by simp) ?_
    omega

/-- `to_integral` is always defined. Its result is a port exactly where the signed number in front is that. -/
theorem toIntegral_port (name text : Text) :
    ∃ result, ToIntegral.toIntegral IntType.result (.integer ToIntegral.intType) name text = some result ∧
      ∀ number : Int, 0 ≤ number → number ≤ 65535 → (result = .ok number ↔ signed text = number) := by
  by_cases empty : text = []
  · subst empty
    exact ⟨.ok 0, rfl, fun number _ _ => Except.ok.injEq 0 number ▸ Iff.rfl⟩
  have filled : text.length ≠ 0 := fun none => empty (List.length_eq_zero_iff.mp none)
  have kind : (Integral.integer ToIntegral.intType).signed = true := rfl
  rw [ToIntegral.toIntegral, if_neg filled, ToIntegral.base, if_pos kind, signed]
  by_cases minus : text.head? = some 45
  · rw [if_pos minus, if_pos minus, ToIntegral.negated, core_front]
    by_cases fits : (front (text.drop 1) : Int) ≤ 2147483647
    · have inRange : IntType.int.InRange (-front (text.drop 1) : Int) := by
        rw [IntType.inRange_int]
        omega
      have negative := IntType.result_of_inRange inRange
      have converted := IntType.convert_of_inRange (by decide) inRange
      refine ⟨.ok (-front (text.drop 1)), ?_, fun number _ _ => ?_⟩
      · rw [ToIntegral.answer_fits fits]
        show Option.map _ (IntType.int.result _) = _
        rw [negative]
        show some (Except.ok (IntType.int.convert _)) = _
        rw [converted]
      · rw [Except.ok.injEq]
    · refine ⟨_, by rw [ToIntegral.answer_large (Int.not_le.mp fits)]; rfl, fun number least _ => ?_⟩
      refine iff_of_false (by simp) ?_
      omega
  · rw [if_neg minus, if_neg minus]
    by_cases plus : text.head? = some 43
    · rw [if_pos plus, if_pos plus, core_front]
      exact ⟨_, rfl, fun number _ small => answer_port small⟩
    · rw [if_neg plus, if_neg plus, core_front]
      exact ⟨_, rfl, fun number _ small => answer_port small⟩

/-- The parser of ports accepts the numbers whose low 32 bits are a port. -/
theorem parseV4Port_eq_some_iff (port : PortNr) :
    parseV4Port order text = some port ↔
      IsNumber text ∧ Decimal.value text % 2 ^ 32 ≤ 65535 ∧
        port = .ofHost order (BitVec.ofNat 16 (Decimal.value text % 2 ^ 32)) := by
  by_cases number : IsNumber text
  · rw [parseV4Port_number number, Option.ite_none_right_eq_some, Option.some.injEq, and_iff_right number]
    exact and_congr_right fun _ => eq_comm
  · rw [parseV4Port_other number]
    exact iff_of_false (by simp) fun both => number both.1

/-- The parser accepts an address and a number, with the first colon between them, whose low 32 bits are a
port. -/
theorem parseV4Endpoint_eq_some_iff (endpoint : BasicEndpointV4) :
    parseV4Endpoint order str = some endpoint ↔
      ∃ address port, Parts str address port ∧ IsNumber port ∧ Decimal.value port % 2 ^ 32 ≤ 65535 ∧
        parseV4Address order address = some endpoint.address ∧
        endpoint.port = .ofHost order (BitVec.ofNat 16 (Decimal.value port % 2 ^ 32)) ∧
        endpoint.valid = true := by
  constructor
  · intro parsed
    rw [parseV4Endpoint] at parsed
    split at parsed
    · contradiction
    · rename_i address foundAddress
      split at parsed
      · contradiction
      · rename_i port foundPort
        cases parsed
        obtain ⟨number, small, value⟩ := (parseV4Port_eq_some_iff port).mp foundPort
        rcases Netlib.Ip.parts_or_colonless str with ⟨front, back, parts, divided⟩ | ⟨-, whole⟩
        · rw [divided] at foundAddress number small value
          exact ⟨front, back, parts, number, small, foundAddress, value, rfl⟩
        · have nonempty := number.nonempty
          rw [whole] at nonempty
          contradiction
  · rintro ⟨address, port, parts, number, small, foundAddress, value, valid⟩
    have foundPort : parseV4Port order port = some endpoint.port :=
      (parseV4Port_eq_some_iff endpoint.port).mpr ⟨number, small, value⟩
    rw [parseV4Endpoint, parts.split]
    simp only [foundAddress, foundPort]
    rw [← valid]

/-- The constructor takes the parts at the first colon, where the second is not empty. -/
theorem addrPortPair_eq_ok_iff {address port : Text} :
    BasicEndpointV4.addrPortPair str = .ok (address, port) ↔ Parts str address port ∧ port ≠ [] := by
  have filled : ∀ part : Text, part ≠ [] ↔ ¬ part.length < 1 := by
    intro part
    rw [← List.length_pos_iff]
    omega
  rw [BasicEndpointV4.addrPortPair, splitAt_find, filled]
  constructor
  · intro accepted
    split at accepted
    · contradiction
    · rename_i long
      have divided := Except.ok.inj accepted
      rw [divided] at long
      refine ⟨?_, long⟩
      rcases Netlib.Ip.parts_or_colonless str with ⟨front, back, parts, same⟩ | ⟨-, whole⟩
      · obtain ⟨rfl, rfl⟩ := Prod.mk.inj (divided.symm.trans same)
        exact parts
      · obtain ⟨-, rfl⟩ := Prod.mk.inj (divided.symm.trans whole)
        exact absurd (show ([] : Text).length < 1 by decide) long
  · rintro ⟨parts, long⟩
    rw [parts.split]
    exact if_neg long

theorem portOf_defined (int : Text) (order : ByteOrder) (strv second : Text) :
    ∃ answer, BasicEndpointV4.portOf int order strv second = some answer := by
  obtain ⟨result, defined, -⟩ := toIntegral_port int second
  exact ⟨_, by rw [BasicEndpointV4.portOf, defined, Option.map_some]⟩

/-- The port of a text is the signed number in front, where that is one. -/
theorem portOf_eq_ok_iff (int strv : Text) (port : PortNr) :
    BasicEndpointV4.portOf int order strv text = some (.ok port) ↔
      0 ≤ signed text ∧ signed text ≤ 65535 ∧ port = .ofHost order (BitVec.ofInt 16 (signed text)) := by
  obtain ⟨result, defined, reads⟩ := toIntegral_port int text
  rw [BasicEndpointV4.portOf, defined, Option.map_some, Option.some.injEq]
  cases result with
  | error message =>
      refine iff_of_false (by simp) fun small => ?_
      exact absurd ((reads _ small.1 small.2.1).mpr rfl) (by simp)
  | ok number =>
      dsimp only
      by_cases outside : number < 0 ∨ 65535 < number
      · rw [if_pos outside]
        refine iff_of_false (by simp) fun small => ?_
        have same := Except.ok.inj ((reads _ small.1 small.2.1).mpr rfl)
        omega
      · have same : signed text = number := (reads number (by omega) (by omega)).mp rfl
        rw [if_neg outside, Except.ok.injEq, same]
        constructor
        · rintro rfl
          exact ⟨by omega, by omega, rfl⟩
        · intro inside
          exact inside.2.2.symm

/-- The constructor accepts an address and a text with a port in front, with the first colon between them. -/
theorem endpoint_ofString_eq_ok_iff (int : Text) (endpoint : BasicEndpointV4) :
    BasicEndpointV4.ofString int order str = some (.ok endpoint) ↔
      ∃ address port, Parts str address port ∧ port ≠ [] ∧ 0 ≤ signed port ∧ signed port ≤ 65535 ∧
        parseV4Address order address = some endpoint.address ∧
        endpoint.port = .ofHost order (BitVec.ofInt 16 (signed port)) ∧ endpoint.valid = true := by
  rw [BasicEndpointV4.ofString]
  constructor
  · intro accepted
    split at accepted
    · cases accepted
    · rename_i pair taken
      split at accepted
      · cases accepted
      · rename_i address found
        obtain ⟨parts, filled⟩ := addrPortPair_eq_ok_iff.mp taken
        obtain ⟨answer, defined⟩ := portOf_defined int order str pair.2
        rw [defined, Option.map_some, Option.some.injEq] at accepted
        cases answer with
        | error error => contradiction
        | ok port =>
            obtain rfl := Except.ok.inj accepted
            obtain ⟨least, most, value⟩ := (portOf_eq_ok_iff int str port).mp defined
            exact ⟨pair.1, pair.2, parts, filled, least, most, address_ofString_eq_ok_iff.mp found, value, rfl⟩
  · rintro ⟨address, port, parts, filled, least, most, found, value, valid⟩
    have taken := addrPortPair_eq_ok_iff.mpr ⟨parts, filled⟩
    have given := address_ofString_eq_ok_iff.mpr found
    have made := (portOf_eq_ok_iff int str endpoint.port).mpr ⟨least, most, value⟩
    simp only [taken, given, made, Option.map_some]
    rw [← valid]
    rfl

/-- A port of mart-netlib is a number without a sign, whose low 32 bits are its own. -/
theorem isPort_reads (isPort : Netlib.Ip.IsPort text) :
    IsNumber text ∧ Decimal.value text % 2 ^ 32 = Decimal.value text ∧ signed text = Decimal.value text := by
  obtain ⟨nonempty, short, digits, small⟩ := isPort
  have all : text.takeWhile Decimal.isDigit = text := by
    have alone := Decimal.takeWhile_digits digits (rfl : Decimal.NoDigitFirst [])
    rwa [List.append_nil] at alone
  have unsigned : ∀ sign, Decimal.isDigit sign = false → text.head? ≠ some sign := by
    intro sign other first
    have digit := digits sign (List.mem_of_mem_head? first)
    rw [other] at digit
    contradiction
  refine ⟨⟨nonempty, by omega, digits⟩, Nat.mod_eq_of_lt (by omega), ?_⟩
  rw [signed, if_neg (unsigned 45 rfl), if_neg (unsigned 43 rfl), front, all]

-- `4294967297` wraps around to the port 1.
example : (parseV4Endpoint .littleEndian (ascii "1.2.3.4:4294967297")).isSome = true ∧
    Netlib.Ip.tryParseBasicV4Endpoint .littleEndian (ascii "1.2.3.4:4294967297") = none := by
  decide

end MartCommon.Experimental.Ip

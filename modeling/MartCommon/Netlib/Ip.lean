import MartCommon.Common.StringView
import MartCommon.Netlib.ByteOrder

namespace MartCommon.Netlib.Ip

open Library Common

def dot : UInt8 := 46

def colon : UInt8 := 58

namespace ImplAddrV4

def hasWrongLength (str : Text) : Bool := str.length > 4 * 3 + 3 || str.length < 4 + 3

def hasInvalidChar (str : Text) : Bool := str.any fun c => !(Decimal.isDigit c || c == dot)

def hasWrongBlockCount (str : Text) : Bool := str.count dot != 3

def isMalformed (str : Text) : Bool :=
  hasWrongLength str || hasInvalidChar str || hasWrongBlockCount str

def parseBlock (block : Text) : Option (BitVec 32) :=
  if block.length > 3 then none
  else
    let num := toIntegralUnsafe .uint32 block
    if num > 255 then none else some (BitVec.ofInt 32 num)

/-- The unchecked `substr( str, start, length )`. -/
def substr (str : Text) (start length : Nat) : Text := (str.drop start).take length

/-- The unchecked `substr( str, start )`. -/
def substrFrom (str : Text) (start : Nat) : Text := substr str start (str.length - start)

/-- The locals of `split_blocks_unchecked`. -/
structure SplitState where
  ret : List Text := List.replicate 4 []
  cnt : Nat := 0
  start : Nat := 0

/-- One turn of the loop. Its callers make sure that `cnt` stays below four. -/
def splitStep (str : Text) (state : SplitState) (pos : Nat) : SplitState :=
  if str[pos]? = some dot then
    { ret := state.ret.set state.cnt (substr str state.start (pos - state.start))
      cnt := state.cnt + 1
      start := pos + 1 }
  else state

def splitBlocksUnchecked (str : Text) : List Text :=
  let state := (List.range' 0 str.length).foldl (splitStep str) {}
  state.ret.set 3 (substrFrom str state.start)

/-- The loop of `parse_address` over the blocks. -/
def accumulate : BitVec 32 → List Text → Option (BitVec 32)
  | accum, [] => some accum
  | accum, block :: rest =>
      match parseBlock block with
      | none => none
      | some v => accumulate (accum <<< 8 ||| v) rest

def parseAddress (string : Text) : Option (BitVec 32) :=
  if isMalformed string then none else accumulate 0 (splitBlocksUnchecked string)

end ImplAddrV4

namespace ImplPortV4

def hasWrongLength (str : Text) : Bool := str.length > 6 || str.isEmpty

def hasInvalidChar (str : Text) : Bool := str.any fun c => !Decimal.isDigit c

end ImplPortV4

/-- The exception `invalid_address_string`. -/
structure InvalidAddressString where
  message : Text
  deriving DecidableEq, Repr

/-- The characters that `mba::concat` gives to its result. -/
def concat (parts : List Text) : Text := parts.flatten

def throwIpv4ParseFailInvalidFormat {Value : Type} (str : Text) :
    Except InvalidAddressString Value :=
  .error ⟨concat [ascii "Creating ipv4 endpoint from string \"", str,
    ascii "\" Failed. Addess must have format a.b.c.d:p - colon or p is missing"]⟩

def throwIpv4ParseFailPort {Value : Type} (str port : Text) : Except InvalidAddressString Value :=
  .error ⟨concat [ascii "Parsing port <", port, ascii "> from ipv4 endpoint string\"", str,
    ascii "\" failed.Note, port number has to be in the interval [0..65535]"]⟩

structure AddressV4 where
  addr : NetInt 32 := ⟨0⟩
  deriving DecidableEq, Repr

namespace AddressV4

def throwParseIpV4StringError {Value : Type} (str : Text) : Except InvalidAddressString Value :=
  .error ⟨concat [ascii "Could not parse string \"", str,
    ascii "\" - IP-Addess must have format a.b.c.d. "]⟩

def parseIpV4String (str : Text) : Except InvalidAddressString (BitVec 32) :=
  match ImplAddrV4.parseAddress str with
  | none => throwParseIpV4StringError str
  | some res => .ok res

/-- `address_v4( uint32_host_t )` -/
def ofHost (order : ByteOrder) (addrH : BitVec 32) : AddressV4 := ⟨toNetOrder order addrH⟩

/-- `address_v4( std::string_view )` -/
def ofString (order : ByteOrder) (str : Text) : Except InvalidAddressString AddressV4 :=
  (parseIpV4String str).map (ofHost order)

def inNetOrder (address : AddressV4) : NetInt 32 := address.addr

def inHostOrder (order : ByteOrder) (address : AddressV4) : BitVec 32 :=
  toHostOrder order address.addr

/-- `inet_ntop` writes to a buffer of 24 zeros, whose text ends at the first zero. -/
def asString (inetNtop : List UInt8 → Text → Text) (order : ByteOrder) (address : AddressV4) : Text :=
  let ret := inetNtop (memory order address.addr.raw) (List.replicate 24 0)
  ret.takeWhile (· != 0)

end AddressV4

def tryParseV4Address (order : ByteOrder) (string : Text) : Option AddressV4 :=
  match ImplAddrV4.parseAddress string with
  | some res => some (.ofHost order res)
  | none => none

def isValidV4Address (string : Text) : Bool := (ImplAddrV4.parseAddress string).isSome

structure PortNr where
  p : NetInt 16 := ⟨0⟩
  deriving DecidableEq, Repr

/-- `port_nr( uint16_host_t )` -/
def PortNr.ofHost (order : ByteOrder) (value : BitVec 16) : PortNr := ⟨toNetOrder order value⟩

def PortNr.inHostOrder (order : ByteOrder) (port : PortNr) : BitVec 16 := toHostOrder order port.p

def tryParseV4Port (order : ByteOrder) (string : Text) : Option PortNr :=
  if ImplPortV4.hasWrongLength string || ImplPortV4.hasInvalidChar string then none
  else
    let parsed := toIntegralUnsafe .uint32 string
    if parsed > 65535 then none else some (.ofHost order (BitVec.ofInt 16 parsed))

structure BasicEndpointV4Base where
  address : AddressV4 := {}
  port : PortNr := {}
  valid : Bool := false
  deriving DecidableEq, Repr

namespace BasicEndpointV4Base

/-- `basic_endpoint_v4_base( address_v4, port_nr )` -/
def ofParts (address : AddressV4) (port : PortNr) : BasicEndpointV4Base := ⟨address, port, true⟩

/-- `basic_endpoint_v4_base( uint32_host_t, uint16_host_t )` -/
def ofHost (order : ByteOrder) (address : BitVec 32) (port : BitVec 16) : BasicEndpointV4Base :=
  ⟨.ofHost order address, .ofHost order port, true⟩

/-- `basic_endpoint_v4_base( std::string_view )` -/
def ofString (order : ByteOrder) (str : Text) : Except InvalidAddressString BasicEndpointV4Base :=
  let ps := split str colon
  if ps.2.length < 1 then throwIpv4ParseFailInvalidFormat str
  else
    match AddressV4.ofString order ps.1 with
    | .error error => .error error
    | .ok address =>
        match tryParseV4Port order ps.2 with
        | none => throwIpv4ParseFailPort str ps.2
        | some port => .ok ⟨address, port, true⟩

def toString (inetNtop : List UInt8 → Text → Text) (order : ByteOrder)
    (endpoint : BasicEndpointV4Base) : Text :=
  concat [endpoint.address.asString inetNtop order, [colon],
    Decimal.render (endpoint.port.inHostOrder order).toNat]

end BasicEndpointV4Base

def tryParseBasicV4Endpoint (order : ByteOrder) (str : Text) : Option BasicEndpointV4Base :=
  let ps := split str colon
  match tryParseV4Address order ps.1 with
  | none => none
  | some address =>
      match tryParseV4Port order ps.2 with
      | none => none
      | some port => some (.ofParts address port)

inductive TransportProtocol where
  | udp
  | tcp
  deriving DecidableEq, Repr

/-- `basic_endpoint_v4<p>` derives from the base and adds no state. -/
structure BasicEndpointV4 (p : TransportProtocol) extends BasicEndpointV4Base
  deriving DecidableEq, Repr

def BasicEndpointV4.tryParse (p : TransportProtocol) (order : ByteOrder) (str : Text) :
    Option (BasicEndpointV4 p) :=
  match tryParseBasicV4Endpoint order str with
  | some rs => some ⟨rs⟩
  | none => none

def tryParseV4Endpoint (p : TransportProtocol) (order : ByteOrder) (str : Text) :
    Option (BasicEndpointV4 p) :=
  BasicEndpointV4.tryParse p order str

end MartCommon.Netlib.Ip

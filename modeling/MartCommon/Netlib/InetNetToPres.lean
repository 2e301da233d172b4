import MartCommon.Common.ArrayView
import MartCommon.Library.CString
import MartCommon.Netlib.Acceptor

namespace MartCommon.Netlib.PortLayer

open Common Library

/-- The address families `AF_INET` and `AF_INET6` -/
inductive AddressFamily where
  | inet
  | inet6
  deriving DecidableEq, Repr

/-- `::inet_ntop` writes the text of an address and a terminator to a buffer, unless it fails. -/
structure InetNtop where
  write : (family : AddressFamily) → (src dst : Text) → Option Text
  sized : ∀ family src dst written, write family src dst = some written → written.length = dst.length
  terminated : ∀ family src dst written, write family src dst = some written → 0 ∈ written

/-- `sockaddr_in6` -/
structure SockaddrIn6 where
  sin6Addr : Vector UInt8 16
  sin6Port : NetInt 16

/-- `socklen_t` has 32 bits, so that a large `std::size_t` wraps around on its way to `::inet_ntop`. -/
def toSocklen (size : SizeT) : Nat := (IntType.uint32.convert size.toNat).toNat

section Overloads

variable (ntop : InetNtop) (order : ByteOrder)

/-- The call of `::inet_ntop` on the memory from `dst` on. -/
def callInetNtop (family : AddressFamily) (src dst : Text) (size : SizeT) : Option Text :=
  (ntop.write family src (dst.take (toSocklen size))).map fun written =>
    written ++ dst.drop (toSocklen size)

def portstr (port : NetInt 16) : Text := Decimal.render (toHostOrder order port).toNat

/-- What follows the call of `::inet_ntop` in both overloads. -/
def appendPort (dst : Text) (port : NetInt 16) (size : SizeT) : Option Text :=
  (CString.strlen dst).bind fun length =>
    let addrlen : SizeT := BitVec.ofNat 64 length
    let portstr := portstr order port
    if addrlen + BitVec.ofNat 64 portstr.length + 2 + 1 > size then some dst
    else
      (CString.strncat dst (ascii ":") 2).bind fun dst =>
        CString.strncat dst portstr (size - addrlen - 3).toNat

/-- What both overloads have in common: whether `dst` is returned, and the memory from there on. -/
def netToPres (family : AddressFamily) (src : Text) (port : NetInt 16) (dst : Text) (size : SizeT) :
    Option (Bool × Text) :=
  match callInetNtop ntop family src dst size with
  | none => some (false, dst)
  | some written => (appendPort order written port size).map fun after => (true, after)

/-- `inet_net_to_pres( const ::sockaddr_in*, char*, std::size_t )` -/
def inetNetToPresIn (src : Tcp.SockaddrIn) (dst : Text) (size : SizeT) : Option (Bool × Text) :=
  netToPres ntop order .inet (memory order src.address.raw) src.port dst size

/-- `inet_net_to_pres( const ::sockaddr_in6*, char*, std::size_t )` -/
def inetNetToPresIn6 (src : SockaddrIn6) (dst : Text) (size : SizeT) : Option (Bool × Text) :=
  netToPres ntop order .inet6 src.sin6Addr.toList src.sin6Port dst size

/-- The argument that selects the overload. -/
inductive Source where
  | inet (src : Tcp.SockaddrIn)
  | inet6 (src : SockaddrIn6)

namespace Source

def family : Source → AddressFamily
  | .inet _ => .inet
  | .inet6 _ => .inet6

/-- The bytes of the address in memory. -/
def address : Source → Text
  | .inet src => memory order src.address.raw
  | .inet6 src => src.sin6Addr.toList

def port : Source → NetInt 16
  | .inet src => src.port
  | .inet6 src => src.sin6Port

end Source

def inetNetToPres (dst : Text) (size : SizeT) : Source → Option (Bool × Text)
  | .inet src => inetNetToPresIn ntop order src dst size
  | .inet6 src => inetNetToPresIn6 ntop order src dst size

end Overloads

/-- The text with the port, where it fits into the buffer with its terminator, and else the address. -/
def expected (address port : Text) (size : Nat) : Text :=
  if (address ++ ascii ":" ++ port).length + 1 ≤ size then address ++ ascii ":" ++ port else address

/-- A call leaves a terminated text in the buffer, the expected one, and nothing is written behind it. -/
def Prints (result : Option (Bool × Text)) (size : Nat) (behind address port : Text) : Prop :=
  ∃ after, result = some (true, after ++ behind) ∧ after.length = size ∧ 0 ∈ after ∧
    CString.characters after = expected address port size

variable {order : ByteOrder} {port : NetInt 16} {size : SizeT} {address front behind : Text}

theorem length_portstr_le (order : ByteOrder) (port : NetInt 16) : (portstr order port).length ≤ 5 :=
  Decimal.length_render_le (by decide) ((toHostOrder order port).isLt.trans (by decide))

theorem zero_notMem_portstr (order : ByteOrder) (port : NetInt 16) : 0 ∉ portstr order port := by
  intro member
  exact absurd (Decimal.isDigit_of_mem_render member) (by decide)

/-- The sizes are too small for their sum to wrap around. -/
theorem toNat_sum {a p : Nat} (small : a < 2 ^ 32) (short : p ≤ 5) :
    (BitVec.ofNat 64 a + BitVec.ofNat 64 p + 2 + 1).toNat = a + p + 3 := by
  have two : (2 : SizeT).toNat = 2 := rfl
  have one : (1 : SizeT).toNat = 1 := rfl
  simp only [BitVec.toNat_add, BitVec.toNat_ofNat, two, one]
  omega

theorem toNat_room {a : Nat} (small : a < 2 ^ 32) (room : a + 3 ≤ size.toNat) :
    (size - BitVec.ofNat 64 a - 3).toNat = size.toNat - a - 3 := by
  have bound := size.isLt
  have three : (3 : SizeT).toNat = 3 := rfl
  simp only [BitVec.toNat_sub, BitVec.toNat_ofNat, three]
  omega

/-- Both appended texts, where there is room for them. -/
theorem strncat_both (zeroFree : 0 ∉ address) {count : Nat}
    (enough : (portstr order port).length ≤ count)
    (room : (portstr order port).length + 1 ≤ front.length) :
    ((CString.strncat (address ++ 0 :: (front ++ behind)) (ascii ":") 2).bind fun dst =>
        CString.strncat dst (portstr order port) count) =
      some (address ++ ascii ":" ++ portstr order port ++
        0 :: (front.drop ((portstr order port).length + 1) ++ behind)) := by
  have colonFree : 0 ∉ address ++ ascii ":" := by
    rw [List.mem_append]
    exact not_or.mpr ⟨zeroFree, by decide⟩
  have port_all : (CString.characters (portstr order port)).take count = portstr order port := by
    rw [CString.characters_eq (zero_notMem_portstr order port), List.take_of_length_le enough]
  have one : (ascii ":").length = 1 := rfl
  have first : CString.strncat (address ++ 0 :: (front ++ behind)) (ascii ":") 2 =
      some (address ++ ascii ":" ++ 0 :: (front ++ behind).drop 1) := by
    apply CString.strncat_append zeroFree (by decide)
    rw [one, List.length_append]
    omega
  have second : CString.strncat (address ++ ascii ":" ++ 0 :: (front ++ behind).drop 1)
      (portstr order port) count = some (address ++ ascii ":" ++ portstr order port ++
        0 :: ((front ++ behind).drop 1).drop (portstr order port).length) := by
    apply CString.strncat_append colonFree port_all
    rw [List.length_drop, List.length_append]
    omega
  rw [first, Option.bind_some, second, List.drop_drop, Nat.add_comm 1,
    List.drop_append_of_le_length room]

/-- The port is appended where one byte more than needed is there. -/
theorem appendPort_eq (zeroFree : 0 ∉ address) (small : address.length < 2 ^ 32)
    (whole : address.length + 1 + front.length = size.toNat) :
    appendPort order (address ++ 0 :: (front ++ behind)) port size =
      if address.length + (portstr order port).length + 3 ≤ size.toNat then
        some (address ++ ascii ":" ++ portstr order port ++
          0 :: (front.drop ((portstr order port).length + 1) ++ behind))
      else some (address ++ 0 :: (front ++ behind)) := by
  have sum := toNat_sum small (length_portstr_le order port)
  rw [appendPort, CString.strlen_append zeroFree, Option.bind_some]
  simp only [gt_iff_lt, BitVec.lt_def, sum]
  by_cases fits : address.length + (portstr order port).length + 3 ≤ size.toNat
  · rw [if_pos fits, if_neg (Nat.not_lt.mpr fits), toNat_room small (by omega)]
    exact strncat_both zeroFree (by omega) (by omega)
  · rw [if_neg fits, if_pos (Nat.lt_of_not_le fits)]

/-- What a successful `::inet_ntop` leaves in a buffer. -/
theorem callInetNtop_eq {ntop : InetNtop} {family : AddressFamily} {src buffer written : Text}
    (whole : buffer.length = size.toNat) (behind : Text)
    (called : callInetNtop ntop family src buffer size = some written) :
    ∃ front, written = CString.characters written ++ 0 :: front ∧
      (CString.characters written).length < 2 ^ 32 ∧
        (CString.characters written).length + 1 + front.length = size.toNat ∧
          callInetNtop ntop family src (buffer ++ behind) size = some (written ++ behind) := by
  obtain ⟨text, wrote, rfl⟩ := Option.map_eq_some_iff.mp called
  have within : toSocklen size < 2 ^ 32 ∧ toSocklen size ≤ buffer.length := by
    rw [toSocklen, IntType.convert_unsigned rfl]
    simp only [IntType.uint32]
    omega
  have sized := ntop.sized _ _ _ _ wrote
  rw [List.length_take_of_le within.2] at sized
  obtain ⟨rest, parts⟩ := CString.exists_rest (ntop.terminated _ _ _ _ wrote)
  have zeroFree := CString.zero_notMem_characters text
  have length := congrArg List.length parts
  rw [List.length_append, List.length_cons, sized] at length
  have joined : text ++ buffer.drop (toSocklen size) =
      CString.characters text ++ 0 :: (rest ++ buffer.drop (toSocklen size)) := by
    rw [← List.cons_append, ← List.append_assoc, ← parts]
  have same : CString.characters (text ++ buffer.drop (toSocklen size)) = CString.characters text := by
    rw [joined, CString.characters_append zeroFree]
  refine ⟨rest ++ buffer.drop (toSocklen size), ?_, ?_, ?_, ?_⟩
  · rw [same]
    exact joined
  · rw [same]
    omega
  · rw [same, List.length_append, List.length_drop, ← whole]
    omega
  · rw [callInetNtop, List.take_append_of_le_length within.2, wrote, Option.map_some,
      List.drop_append_of_le_length within.2, List.append_assoc]

theorem inetNetToPres_eq (ntop : InetNtop) (order : ByteOrder) (dst : Text) (size : SizeT) (source : Source) :
    inetNetToPres ntop order dst size source =
      netToPres ntop order source.family (source.address order) source.port dst size := by
  cases source <;> rfl

/-- The address stands alone exactly where the text with the port does not fit. -/
theorem expected_eq_address_iff {port : Text} {size : Nat} :
    expected address port size = address ↔ size < address.length + port.length + 2 := by
  have length : (address ++ ascii ":" ++ port).length = address.length + port.length + 1 := by
    have one : (ascii ":").length = 1 := rfl
    rw [List.length_append, List.length_append, one]
    omega
  rw [expected, length]
  split
  · rename_i fits
    refine iff_of_false (fun same => ?_) (by omega)
    rw [same] at length
    omega
  · exact iff_of_true rfl (by omega)

/-- The memory from `dst` on that a call leaves decides whether it prints what is expected. -/
theorem prints_iff {after port : Text} {size : Nat} :
    Prints (some (true, after ++ behind)) size behind address port ↔
      after.length = size ∧ 0 ∈ after ∧ CString.characters after = expected address port size := by
  constructor
  · rintro ⟨other, same, rest⟩
    rw [Option.some.injEq, Prod.mk.injEq, List.append_cancel_right_eq] at same
    rwa [same.2]
  · exact fun rest => ⟨after, rfl, rest⟩

/-- What follows the call of `::inet_ntop` prints what is expected, unless the terminator would take the
last byte of the buffer. -/
theorem prints_appendPort_iff (zeroFree : 0 ∉ address) (small : address.length < 2 ^ 32)
    (whole : address.length + 1 + front.length = size.toNat) :
    Prints ((appendPort order (address ++ 0 :: (front ++ behind)) port size).map fun after => (true, after))
        size.toNat behind address (portstr order port) ↔
      size.toNat ≠ address.length + (portstr order port).length + 2 := by
  have one : (ascii ":").length = 1 := rfl
  rw [appendPort_eq zeroFree small whole]
  by_cases fits : address.length + (portstr order port).length + 3 ≤ size.toNat
  · have full : 0 ∉ address ++ ascii ":" ++ portstr order port := by
      simp only [List.mem_append, not_or]
      exact ⟨⟨zeroFree, by decide⟩, zero_notMem_portstr order port⟩
    rw [if_pos fits, Option.map_some, ← List.cons_append, ← List.append_assoc, prints_iff]
    refine iff_of_true ⟨?_, by simp, ?_⟩ (by omega)
    · simp only [List.length_append, List.length_cons, List.length_drop, one]
      omega
    · rw [CString.characters_append full, expected, if_pos]
      simp only [List.length_append, one]
      omega
  · have length : (address ++ 0 :: front).length = size.toNat := by
      rw [List.length_append, List.length_cons]
      omega
    have terminated : 0 ∈ address ++ 0 :: front := by simp
    rw [if_neg fits, Option.map_some, ← List.cons_append, ← List.append_assoc, prints_iff,
      CString.characters_append zeroFree, and_iff_right length, and_iff_right terminated, eq_comm,
      expected_eq_address_iff]
    omega

/-- Both overloads print what is expected for every buffer but one whose last byte the terminator of the
text with the port would take. -/
theorem inetNetToPres_prints_iff (ntop : InetNtop) (order : ByteOrder) (source : Source) {size : SizeT}
    {buffer written : Text} (whole : buffer.length = size.toNat)
    (managed : callInetNtop ntop source.family (source.address order) buffer size = some written)
    (behind : Text) :
    let address := CString.characters written
    let port := portstr order source.port
    Prints (inetNetToPres ntop order (buffer ++ behind) size source) size.toNat behind address port ↔
      size.toNat ≠ address.length + port.length + 2 := by
  intro address port
  have zeroFree : 0 ∉ address := CString.zero_notMem_characters written
  obtain ⟨front, parts, small, length, called⟩ := callInetNtop_eq whole behind managed
  have joined : written ++ behind = address ++ 0 :: (front ++ behind) := by
    rw [← List.cons_append, ← List.append_assoc, ← parts]
  rw [inetNetToPres_eq, netToPres, called]
  simp only [joined]
  exact prints_appendPort_iff zeroFree small length

/-- The text of an address of `AF_INET` with its terminator -/
def writeDotted (family : AddressFamily) (src dst : Text) : Option Text :=
  let text := List.intercalate (ascii ".") (src.map fun byte => Decimal.render byte.toNat)
  if family = .inet ∧ text.length + 1 ≤ dst.length then some (text ++ 0 :: dst.drop (text.length + 1))
  else none

theorem writeDotted_sized {family : AddressFamily} {src dst written : Text}
    (wrote : writeDotted family src dst = some written) : written.length = dst.length := by
  simp only [writeDotted, Option.ite_none_right_eq_some, Option.some.injEq] at wrote
  obtain ⟨⟨-, fits⟩, rfl⟩ := wrote
  rw [List.length_append, List.length_cons, List.length_drop]
  omega

theorem writeDotted_terminated {family : AddressFamily} {src dst written : Text}
    (wrote : writeDotted family src dst = some written) : 0 ∈ written := by
  simp only [writeDotted, Option.ite_none_right_eq_some, Option.some.injEq] at wrote
  rw [← wrote.2]
  exact List.mem_append_right _ List.mem_cons_self

/-- `::inet_ntop` of a system that only knows the addresses of `AF_INET`. -/
def dottedNtop : InetNtop where
  write := writeDotted
  sized _ _ _ _ := writeDotted_sized
  terminated _ _ _ _ := writeDotted_terminated

/-- The address 127.0.0.1 with the port 80 on a little endian machine -/
def localHost : Source := .inet ⟨⟨0x0100007F⟩, ⟨0x5000⟩⟩

theorem inetNetToPres_prints_local :
    (List.replicate 14 0 : Text).length = (14 : SizeT).toNat ∧
      ∃ written, callInetNtop dottedNtop localHost.family (localHost.address .littleEndian)
          (List.replicate 14 0) 14 = some written ∧
        Prints (inetNetToPres dottedNtop .littleEndian (List.replicate 14 0 ++ [7]) 14 localHost)
          (14 : SizeT).toNat [7] (CString.characters written) (portstr .littleEndian localHost.port) :=
  ⟨rfl, ascii "127.0.0.1" ++ List.replicate 5 0, by decide,
    (inetNetToPres_prints_iff dottedNtop .littleEndian localHost rfl (by decide) [7]).mpr (by decide)⟩

/-- A buffer of 13 bytes has room for the text with the port and its terminator, but only the address is
printed. -/
theorem inetNetToPres_fits_exactly :
    ¬ ∀ (size : SizeT) (buffer written behind : Text), buffer.length = size.toNat →
      callInetNtop dottedNtop localHost.family (localHost.address .littleEndian) buffer size =
          some written →
        Prints (inetNetToPres dottedNtop .littleEndian (buffer ++ behind) size localHost) size.toNat behind
          (CString.characters written) (portstr .littleEndian localHost.port) := by
  intro always
  have managed : callInetNtop dottedNtop localHost.family (localHost.address .littleEndian)
      (List.replicate 13 0) 13 = some (ascii "127.0.0.1" ++ List.replicate 4 0) := by decide
  have printed : inetNetToPres dottedNtop .littleEndian (List.replicate 13 0 ++ []) 13 localHost =
      some (true, (ascii "127.0.0.1" ++ List.replicate 4 0) ++ []) := by decide
  have prints := always 13 _ _ [] rfl managed
  rw [printed, prints_iff] at prints
  exact absurd prints.2.2 (by decide)

end MartCommon.Netlib.PortLayer

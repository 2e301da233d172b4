import MartCommon.Netlib.AddressGrammar

namespace MartCommon.Netlib.Ip

open Library Common ImplAddrV4

/-- Four bytes as decimal numbers without leading zeros, separated by dots. -/
def Dotted.ofBytes (b0 b1 b2 b3 : UInt8) : Dotted :=
  ⟨Decimal.render b0.toNat, Decimal.render b1.toNat, Decimal.render b2.toNat,
    Decimal.render b3.toNat⟩

/-- `inet_ntop` writes the bytes of an IPv4 address in network order as a dotted text with a
terminator, if the destination has room for them. -/
def PrintsDotted (inetNtop : List UInt8 → Text → Text) : Prop :=
  ∀ (b0 b1 b2 b3 : UInt8) (dst : Text), (Dotted.ofBytes b0 b1 b2 b3).text.length < dst.length →
    inetNtop [b0, b1, b2, b3] dst = (Dotted.ofBytes b0 b1 b2 b3).text ++
      0 :: dst.drop ((Dotted.ofBytes b0 b1 b2 b3).text.length + 1)

/-- The decimal number of a byte is a block of the grammar. -/
theorem render_block (byte : UInt8) :
    1 ≤ (Decimal.render byte.toNat).length ∧ Dotted.Short (Decimal.render byte.toNat) := by
  have small : byte.toNat < 256 := byte.toNat_lt
  refine ⟨List.length_pos_iff.mpr (Decimal.render_ne_nil _), ?_, ?_, ?_⟩
  · exact Decimal.length_render_le (by omega) (by omega)
  · exact fun char member => Decimal.isDigit_of_mem_render member
  · rw [Decimal.value_render]
    omega

theorem ofBytes_valid (b0 b1 b2 b3 : UInt8) : (Dotted.ofBytes b0 b1 b2 b3).Valid := by
  simp only [Dotted.Valid, Dotted.ofBytes, Dotted.blocks, List.forall_mem_cons, List.not_mem_nil,
    false_implies, implies_true, and_true]
  exact ⟨render_block b0, render_block b1, render_block b2, render_block b3⟩

/-- An address in memory is its four bytes in network order. -/
theorem memory_ofHost (order : ByteOrder) (addrH : BitVec 32) :
    memory order (AddressV4.ofHost order addrH).addr.raw =
      [.ofBitVec (addrH.extractLsb' 24 8), .ofBitVec (addrH.extractLsb' 16 8),
        .ofBitVec (addrH.extractLsb' 8 8), .ofBitVec (addrH.extractLsb' 0 8)] := by
  have swapped := memory_toNetOrder 2 rfl order addrH
  exact swapped

/-- The dotted text of the bytes of an address has the value of the address. -/
theorem value_ofBytes (addrH : BitVec 32) :
    BitVec.ofNat 32 (Dotted.ofBytes (.ofBitVec (addrH.extractLsb' 24 8))
      (.ofBitVec (addrH.extractLsb' 16 8)) (.ofBitVec (addrH.extractLsb' 8 8))
      (.ofBitVec (addrH.extractLsb' 0 8))).value = addrH := by
  apply BitVec.eq_of_toNat_eq
  have bound := addrH.isLt
  simp only [Dotted.value, Dotted.ofBytes, Decimal.value_render, UInt8.toNat_ofBitVec,
    BitVec.extractLsb'_toNat, Nat.shiftRight_eq_div_pow, BitVec.toNat_ofNat]
  omega

/-- No character of a dotted text is the terminator or a colon. -/
theorem text_chars {dotted : Dotted} (valid : dotted.Valid) :
    (∀ char ∈ dotted.text, char ≠ 0) ∧ colon ∉ dotted.text := by
  have chars := (text_wellFormed fun block member => (valid block member).2).2.1
  refine ⟨?_, ?_⟩
  · rintro char member rfl
    have := chars 0 member
    revert this
    decide
  · intro member
    have := chars colon member
    revert this
    decide

/-- The text of an address is the dotted text of its bytes in network order. -/
theorem asString_eq {inetNtop : List UInt8 → Text → Text} (prints : PrintsDotted inetNtop)
    (order : ByteOrder) (addrH : BitVec 32) :
    (AddressV4.ofHost order addrH).asString inetNtop order =
      (Dotted.ofBytes (.ofBitVec (addrH.extractLsb' 24 8)) (.ofBitVec (addrH.extractLsb' 16 8))
        (.ofBitVec (addrH.extractLsb' 8 8)) (.ofBitVec (addrH.extractLsb' 0 8))).text := by
  have valid := ofBytes_valid (.ofBitVec (addrH.extractLsb' 24 8))
    (.ofBitVec (addrH.extractLsb' 16 8)) (.ofBitVec (addrH.extractLsb' 8 8))
    (.ofBitVec (addrH.extractLsb' 0 8))
  have short := (text_wellFormed fun block member => (valid block member).2).1
  have nonzero := (text_chars valid).1
  rw [AddressV4.asString, memory_ofHost, prints _ _ _ _ _ (by rw [List.length_replicate]; omega),
    List.takeWhile_append_of_pos]
  · rw [List.takeWhile_cons_of_neg (by simp), List.append_nil]
  · intro char member
    rw [bne_iff_ne]
    exact nonzero char member

/-- The text of an address parses to the address. -/
theorem tryParseV4Address_asString {inetNtop : List UInt8 → Text → Text}
    (prints : PrintsDotted inetNtop) (order : ByteOrder) (addrH : BitVec 32) :
    tryParseV4Address order ((AddressV4.ofHost order addrH).asString inetNtop order) =
      some (.ofHost order addrH) := by
  rw [asString_eq prints, tryParseV4Address_text order (ofBytes_valid _ _ _ _), value_ofBytes]

/-- The canonical text of a port number parses to the port. -/
theorem tryParseV4Port_render (order : ByteOrder) (value : BitVec 16) :
    tryParseV4Port order (Decimal.render value.toNat) = some (.ofHost order value) := by
  have bound := value.isLt
  have size : (Decimal.render value.toNat).length ≤ 5 :=
    Decimal.length_render_le (by omega) (by omega)
  have digits : ∀ char ∈ Decimal.render value.toNat, Decimal.isDigit char = true :=
    fun char member => Decimal.isDigit_of_mem_render member
  have sized : ImplPortV4.hasWrongLength (Decimal.render value.toNat) = false := by
    rw [ImplPortV4.hasWrongLength, Bool.or_eq_false_iff, decide_eq_false_iff_not,
      List.isEmpty_eq_false_iff]
    exact ⟨by omega, Decimal.render_ne_nil _⟩
  have chars : ImplPortV4.hasInvalidChar (Decimal.render value.toNat) = false := by
    rw [ImplPortV4.hasInvalidChar, List.any_eq_false]
    intro char member
    simp [digits char member]
  have number : toIntegralUnsafe .uint32 (Decimal.render value.toNat) = value.toNat := by
    rw [toIntegralUnsafe_short rfl (by decide) (by decide) size digits, Decimal.value_render]
  rw [tryParseV4Port, sized, chars, number]
  simp only [Bool.or_self, Bool.false_eq_true, ↓reduceIte]
  rw [if_neg (by omega), BitVec.ofInt_natCast, BitVec.ofNat_toNat, BitVec.setWidth_eq]

/-- The text of an endpoint splits into the texts of its address and its port. -/
theorem split_toString {inetNtop : List UInt8 → Text → Text} (prints : PrintsDotted inetNtop)
    (order : ByteOrder) (address : BitVec 32) (port : BitVec 16) :
    split ((BasicEndpointV4Base.ofHost order address port).toString inetNtop order) colon =
      ((AddressV4.ofHost order address).asString inetNtop order, Decimal.render port.toNat) := by
  have colonless : colon ∉ (AddressV4.ofHost order address).asString inetNtop order := by
    rw [asString_eq prints]
    exact (text_chars (ofBytes_valid _ _ _ _)).2
  have number : (PortNr.ofHost order port).inHostOrder order = port :=
    toHostOrder_toNetOrder 1 rfl order port
  have joined : (BasicEndpointV4Base.ofHost order address port).toString inetNtop order =
      (AddressV4.ofHost order address).asString inetNtop order ++
        colon :: Decimal.render port.toNat := by
    simp [BasicEndpointV4Base.toString, BasicEndpointV4Base.ofHost, concat, number]
  rw [joined, split_append colonless]

/-- The text of an endpoint parses to the endpoint, with the parser and with the constructor. The
text of an address gives the address back. -/
theorem endpoint_roundtrip {inetNtop : List UInt8 → Text → Text} (prints : PrintsDotted inetNtop)
    (order : ByteOrder) (p : TransportProtocol) (address : BitVec 32) (port : BitVec 16) :
    tryParseV4Endpoint p order
        ((BasicEndpointV4Base.ofHost order address port).toString inetNtop order) =
      some ⟨.ofHost order address port⟩ ∧
    BasicEndpointV4Base.ofString order
        ((BasicEndpointV4Base.ofHost order address port).toString inetNtop order) =
      .ok (.ofHost order address port) ∧
    (BasicEndpointV4Base.ofHost order address port).valid = true ∧
    AddressV4.ofString order ((AddressV4.ofHost order address).asString inetNtop order) =
      .ok (.ofHost order address) := by
  have parts := split_toString prints order address port
  have parsedAddress := tryParseV4Address_asString prints order address
  have parsedPort := tryParseV4Port_render order port
  have constructed := (ofString_eq_ok_iff order _ _).mpr parsedAddress
  refine ⟨?_, ?_, rfl, constructed⟩
  · rw [tryParseV4Endpoint, BasicEndpointV4.tryParse, tryParseBasicV4Endpoint, parts]
    simp only [parsedAddress, parsedPort]
    rfl
  · have filled : ¬ (Decimal.render port.toNat).length < 1 := by
      have := List.length_pos_iff.mpr (Decimal.render_ne_nil port.toNat)
      omega
    rw [BasicEndpointV4Base.ofString, parts]
    simp only [constructed, parsedPort, if_neg filled]
    rfl

/-- A printer that behaves as documented. -/
def printDotted : List UInt8 → Text → Text
  | [b0, b1, b2, b3], dst =>
      let text := (Dotted.ofBytes b0 b1 b2 b3).text
      if text.length < dst.length then text ++ 0 :: dst.drop (text.length + 1) else dst
  | _, dst => dst

theorem endpoint_roundtrip_example :
    (BasicEndpointV4Base.ofHost .littleEndian 0x65707b86#32 6666#16).toString printDotted
        .littleEndian = ascii "101.112.123.134:6666" ∧
      tryParseV4Endpoint .udp .littleEndian (ascii "101.112.123.134:6666") =
        some ⟨.ofHost .littleEndian 0x65707b86#32 6666#16⟩ := by
  have printed : (BasicEndpointV4Base.ofHost .littleEndian 0x65707b86#32 6666#16).toString
      printDotted .littleEndian = ascii "101.112.123.134:6666" := by
    decide
  have prints : PrintsDotted printDotted := by
    intro b0 b1 b2 b3 dst fits
    simp only [printDotted, fits, ↓reduceIte]
  exact ⟨printed, printed ▸
    (endpoint_roundtrip prints .littleEndian .udp 0x65707b86#32 6666#16).1⟩

end MartCommon.Netlib.Ip

import MartCommon.Netlib.AddressGrammar

namespace MartCommon.Netlib.Ip

open Library Common

/-- One to six digits with a value of at most 65535. -/
structure IsPort (text : Text) : Prop where
  nonempty : 1 ≤ text.length
  short : text.length ≤ 6
  digits : ∀ char ∈ text, Decimal.isDigit char = true
  small : Decimal.value text ≤ 65535

/-- The texts of an address and of a port with the first colon between them. -/
structure Parts (str address port : Text) : Prop where
  joined : str = address ++ colon :: port
  first : colon ∉ address

theorem hasWrongLength_eq_false_iff (str : Text) :
    ImplPortV4.hasWrongLength str = false ↔ 1 ≤ str.length ∧ str.length ≤ 6 := by
  rw [ImplPortV4.hasWrongLength, Bool.or_eq_false_iff, decide_eq_false_iff_not,
    List.isEmpty_eq_false_iff, ← List.length_pos_iff]
  omega

theorem hasInvalidChar_eq_false_iff (str : Text) :
    ImplPortV4.hasInvalidChar str = false ↔ ∀ char ∈ str, Decimal.isDigit char = true := by
  simp [ImplPortV4.hasInvalidChar]

/-- The port parser accepts the texts of ports, with their decimal value. -/
theorem tryParseV4Port_eq_some_iff (order : ByteOrder) (str : Text) (port : PortNr) :
    tryParseV4Port order str = some port ↔
      IsPort str ∧ port = .ofHost order (BitVec.ofNat 16 (Decimal.value str)) := by
  by_cases formed : ImplPortV4.hasWrongLength str = false ∧ ImplPortV4.hasInvalidChar str = false
  · obtain ⟨nonempty, short⟩ := (hasWrongLength_eq_false_iff str).mp formed.1
    have digits := (hasInvalidChar_eq_false_iff str).mp formed.2
    have number : toIntegralUnsafe .uint32 str = Decimal.value str :=
      toIntegralUnsafe_short rfl (by decide) (by decide) short digits
    rw [tryParseV4Port, formed.1, formed.2, number]
    simp only [Bool.or_self, Bool.false_eq_true, ↓reduceIte, BitVec.ofInt_natCast,
      Option.ite_none_left_eq_some, Option.some.injEq]
    constructor
    · rintro ⟨small, rfl⟩
      exact ⟨⟨nonempty, short, digits, by omega⟩, rfl⟩
    · rintro ⟨isPort, rfl⟩
      have small := isPort.small
      exact ⟨by omega, rfl⟩
  · have refused : tryParseV4Port order str = none := by
      rw [not_and_or, Bool.not_eq_false, Bool.not_eq_false] at formed
      rw [tryParseV4Port, if_pos (Bool.or_eq_true_iff.mpr formed)]
    rw [refused]
    constructor
    · intro accepted
      contradiction
    · rintro ⟨isPort, -⟩
      refine absurd ⟨?_, ?_⟩ formed
      · exact (hasWrongLength_eq_false_iff str).mpr ⟨isPort.nonempty, isPort.short⟩
      · exact (hasInvalidChar_eq_false_iff str).mpr isPort.digits

/-- A string has parts, or it has no colon and splits into itself and nothing. -/
theorem parts_or_colonless (str : Text) :
    (∃ address port, Parts str address port ∧ split str colon = (address, port)) ∨
      colon ∉ str ∧ split str colon = (str, []) := by
  by_cases member : colon ∈ str
  · obtain ⟨address, port, joined, first⟩ := List.eq_append_cons_of_mem member
    exact .inl ⟨address, port, ⟨joined, first⟩, joined ▸ split_append first⟩
  · exact .inr ⟨member, split_of_notMem member⟩

/-- The split at the first colon gives the parts. -/
theorem Parts.split {str address port : Text} (parts : Parts str address port) :
    Common.split str colon = (address, port) := by
  rw [parts.joined]
  exact split_append parts.first

/-- The endpoint parser accepts an address and a port with the first colon between them. -/
theorem tryParseBasicV4Endpoint_eq_some_iff (order : ByteOrder) (str : Text)
    (endpoint : BasicEndpointV4Base) :
    tryParseBasicV4Endpoint order str = some endpoint ↔
      ∃ address port, Parts str address port ∧ IsPort port ∧
        tryParseV4Address order address = some endpoint.address ∧
        endpoint.port = .ofHost order (BitVec.ofNat 16 (Decimal.value port)) ∧
        endpoint.valid = true := by
  constructor
  · intro parsed
    rw [tryParseBasicV4Endpoint] at parsed
    split at parsed
    · contradiction
    · rename_i parsedAddress foundAddress
      split at parsed
      · contradiction
      · rename_i parsedPort foundPort
        cases parsed
        obtain ⟨isPort, value⟩ := (tryParseV4Port_eq_some_iff order _ _).mp foundPort
        rcases parts_or_colonless str with ⟨address, port, parts, divided⟩ | ⟨-, whole⟩
        · rw [divided] at foundAddress isPort value
          exact ⟨address, port, parts, isPort, foundAddress, value, rfl⟩
        · have nonempty := isPort.nonempty
          rw [whole] at nonempty
          contradiction
  · rintro ⟨address, port, parts, isPort, foundAddress, value, valid⟩
    have foundPort := (tryParseV4Port_eq_some_iff order port endpoint.port).mpr ⟨isPort, value⟩
    rw [tryParseBasicV4Endpoint, parts.split]
    simp only [foundAddress, foundPort, BasicEndpointV4Base.ofParts]
    rw [← valid]

/-- The checks of the constructor come in another order and accept the same strings, with the same
endpoint. -/
theorem endpoint_ofString_eq_ok_iff (order : ByteOrder) (str : Text)
    (endpoint : BasicEndpointV4Base) :
    BasicEndpointV4Base.ofString order str = .ok endpoint ↔
      tryParseBasicV4Endpoint order str = some endpoint := by
  rw [BasicEndpointV4Base.ofString, tryParseBasicV4Endpoint]
  by_cases missing : (split str colon).2.length < 1
  · have nothing : (split str colon).2 = [] := List.length_eq_zero_iff.mp (by omega)
    have refused : tryParseV4Port order (split str colon).2 = none := by
      rw [nothing]
      rfl
    simp only [if_pos missing, refused, throwIpv4ParseFailInvalidFormat]
    cases tryParseV4Address order (split str colon).1 <;> simp
  · simp only [if_neg missing]
    cases constructed : AddressV4.ofString order (split str colon).1 with
    | error error =>
        have unparsed : tryParseV4Address order (split str colon).1 = none := by
          cases parsed : tryParseV4Address order (split str colon).1 with
          | none => rfl
          | some address =>
              rw [(ofString_eq_ok_iff order _ address).mpr parsed] at constructed
              contradiction
        simp [unparsed]
    | ok address =>
        rw [(ofString_eq_ok_iff order _ address).mp constructed]
        cases tryParseV4Port order (split str colon).2 with
        | none => simp [throwIpv4ParseFailPort]
        | some port => simp [BasicEndpointV4Base.ofParts]

/-- The constructor and the parser agree on a string, and they accept it exactly when the parts around
its first colon are an address and a port. -/
structure ParsersAgree (order : ByteOrder) (str : Text) : Prop where
  accepted : (∃ endpoint, BasicEndpointV4Base.ofString order str = .ok endpoint) ↔
    (tryParseBasicV4Endpoint order str).isSome = true
  same : ∀ constructed parsed, BasicEndpointV4Base.ofString order str = .ok constructed →
    tryParseBasicV4Endpoint order str = some parsed → constructed.address = parsed.address ∧
      constructed.port = parsed.port ∧ constructed.valid = true ∧ parsed.valid = true
  grammar : (tryParseBasicV4Endpoint order str).isSome = true ↔
    ∃ address port, Parts str address port ∧
      (tryParseV4Address order address).isSome = true ∧ IsPort port
  value : ∀ address port parsed, Parts str address port →
    tryParseBasicV4Endpoint order str = some parsed →
      tryParseV4Address order address = some parsed.address ∧
      (parsed.port.inHostOrder order).toNat = Decimal.value port

/-- The port in host order is the decimal value of its text. -/
theorem inHostOrder_value (order : ByteOrder) {port : Text} (isPort : IsPort port) :
    ((PortNr.ofHost order (BitVec.ofNat 16 (Decimal.value port))).inHostOrder order).toNat =
      Decimal.value port := by
  have small := isPort.small
  have number : (PortNr.ofHost order (BitVec.ofNat 16 (Decimal.value port))).inHostOrder order =
      BitVec.ofNat 16 (Decimal.value port) :=
    toHostOrder_toNetOrder 1 rfl order _
  rw [number, BitVec.toNat_ofNat]
  omega

theorem parsersAgree (order : ByteOrder) (str : Text) : ParsersAgree order str where
  accepted := by
    rw [Option.isSome_iff_exists]
    exact exists_congr fun endpoint => endpoint_ofString_eq_ok_iff order str endpoint
  same := by
    intro constructed parsed byConstructor byParser
    rw [endpoint_ofString_eq_ok_iff, byParser, Option.some.injEq] at byConstructor
    subst byConstructor
    obtain ⟨_, _, _, _, _, _, valid⟩ := (tryParseBasicV4Endpoint_eq_some_iff order str _).mp byParser
    exact ⟨rfl, rfl, valid, valid⟩
  grammar := by
    rw [Option.isSome_iff_exists]
    constructor
    · rintro ⟨endpoint, parsed⟩
      obtain ⟨address, port, parts, isPort, foundAddress, -, -⟩ :=
        (tryParseBasicV4Endpoint_eq_some_iff order str endpoint).mp parsed
      exact ⟨address, port, parts, Option.isSome_iff_exists.mpr ⟨_, foundAddress⟩, isPort⟩
    · rintro ⟨address, port, parts, someAddress, isPort⟩
      obtain ⟨found, foundAddress⟩ := Option.isSome_iff_exists.mp someAddress
      refine ⟨⟨found, .ofHost order (BitVec.ofNat 16 (Decimal.value port)), true⟩, ?_⟩
      rw [tryParseBasicV4Endpoint_eq_some_iff]
      exact ⟨address, port, parts, isPort, foundAddress, rfl, rfl⟩
  value := by
    intro address port parsed parts found
    obtain ⟨address', port', parts', isPort, foundAddress, value, -⟩ :=
      (tryParseBasicV4Endpoint_eq_some_iff order str parsed).mp found
    obtain ⟨rfl, rfl⟩ := Prod.mk.inj (parts'.split.symm.trans parts.split)
    rw [value]
    exact ⟨foundAddress, inHostOrder_value order isPort⟩

end MartCommon.Netlib.Ip

import Mathlib.Data.BitVec

namespace MartCommon.Netlib

/-- `lb_mask<T>( N )`: the low half of `N` bytes. -/
def lbMask {width : Nat} (count : Nat) : BitVec width :=
  (BitVec.ofNat width 1 <<< (count * 8 / 2)) - BitVec.ofNat width 1

/-- `hb_mask<T>( N )`: the high half of `N` bytes. -/
def hbMask {width : Nat} (count : Nat) : BitVec width := lbMask count <<< (count * 8 / 2)

/-- `mbswap<T, N>::calc` for `N = 2 ^ level`. The recursive calls keep the type `T` of `width` bits
and halve `N`. -/
def mbswap {width : Nat} : Nat → BitVec width → BitVec width
  | 0, d => d
  | level + 1, d =>
      let count := 2 ^ (level + 1)
      mbswap level (d >>> (count * 8 / 2) &&& lbMask count) |||
        (mbswap level d <<< (count * 8 / 2) &&& hbMask count)

/-- The shift distance of a level is the width of one half. -/
theorem half_bits (level : Nat) : 2 ^ (level + 1) * 8 / 2 = 2 ^ level * 8 := by
  rw [Nat.pow_succ]
  omega

/-- The low mask holds the bits of the low half, as far as the type has them. -/
theorem getLsbD_lbMask {width level bit : Nat} (inside : bit < width) :
    (lbMask (2 ^ (level + 1)) : BitVec width).getLsbD bit = decide (bit < 2 ^ level * 8) := by
  rw [lbMask, half_bits]
  by_cases fits : 2 ^ level * 8 < width
  · have bound : 2 ^ (2 ^ level * 8) < 2 ^ width := Nat.pow_lt_pow_right (by omega) fits
    have positive : 0 < 2 ^ (2 ^ level * 8) := Nat.two_pow_pos _
    have one : 1 % 2 ^ width = 1 := Nat.mod_eq_of_lt (Nat.one_lt_two_pow (by omega))
    have number : (BitVec.ofNat width 1 <<< (2 ^ level * 8) - BitVec.ofNat width 1).toNat =
        2 ^ (2 ^ level * 8) - 1 := by
      rw [BitVec.toNat_sub, BitVec.toNat_shiftLeft, BitVec.toNat_ofNat, one, Nat.one_shiftLeft,
        Nat.mod_eq_of_lt bound, Nat.mod_eq_sub_mod (by omega), Nat.mod_eq_of_lt (by omega)]
      omega
    rw [BitVec.getLsbD, number, Nat.testBit_two_pow_sub_one]
  · have zero : BitVec.ofNat width 1 <<< (2 ^ level * 8) = BitVec.ofNat width 0 := by
      ext bit
      simp
      omega
    rw [zero, BitVec.zero_sub, BitVec.neg_one_eq_allOnes, BitVec.getLsbD_allOnes]
    simp only [decide_eq_decide]
    omega

/-- The high mask holds the bits of the high half, as far as the type has them. -/
theorem getLsbD_hbMask {width level bit : Nat} (inside : bit < width) :
    (hbMask (2 ^ (level + 1)) : BitVec width).getLsbD bit =
      decide (2 ^ level * 8 ≤ bit ∧ bit < 2 ^ (level + 1) * 8) := by
  rw [hbMask, half_bits, BitVec.getLsbD_shiftLeft]
  by_cases high : bit < 2 ^ level * 8
  · simp [high]
  · rw [getLsbD_lbMask (by omega), Nat.pow_succ]
    simp only [inside, high, decide_true, decide_false, Bool.not_false, Bool.and_self,
      Bool.true_and, decide_eq_decide]
    omega

/-- Nothing is left above the low bytes. A single byte is returned as it is, with what lies above it. -/
theorem getLsbD_mbswap_of_le {width level bit : Nat} {d : BitVec width}
    (low : level = 0 → ∀ high, 2 ^ level * 8 ≤ high → d.getLsbD high = false)
    (above : 2 ^ level * 8 ≤ bit) : (mbswap level d).getLsbD bit = false := by
  induction level generalizing d bit with
  | zero => exact low rfl bit above
  | succ level ih =>
      by_cases inside : bit < width
      · have half : 2 ^ level * 8 ≤ bit := by
          rw [Nat.pow_succ] at above
          omega
        have masked : ∀ high, 2 ^ level * 8 ≤ high →
            (d >>> (2 ^ (level + 1) * 8 / 2) &&& lbMask (2 ^ (level + 1))).getLsbD high = false := by
          intro high far
          by_cases reach : high < width
          · rw [BitVec.getLsbD_and, getLsbD_lbMask reach]
            simp [Nat.not_lt.mpr far]
          · exact BitVec.getLsbD_of_ge _ _ (by omega)
        rw [mbswap, BitVec.getLsbD_or, ih (fun _ => masked) half, BitVec.getLsbD_and,
          getLsbD_hbMask inside]
        simp [Nat.not_lt.mpr above]
      · exact BitVec.getLsbD_of_ge _ _ (by omega)

/-- The swap moves each bit of a byte to the mirrored byte. Bits above the low bytes have no
influence. -/
theorem getLsbD_mbswap {width level byte bit : Nat} {d : BitVec width}
    (fits : 2 ^ level * 8 ≤ width) (present : byte < 2 ^ level) (small : bit < 8) :
    (mbswap level d).getLsbD (byte * 8 + bit) =
      d.getLsbD ((2 ^ level - 1 - byte) * 8 + bit) := by
  induction level generalizing d byte with
  | zero =>
      obtain rfl : byte = 0 := by omega
      rfl
  | succ level ih =>
      have double : 2 ^ (level + 1) = 2 ^ level + 2 ^ level := by
        rw [Nat.pow_succ]
        omega
      have masked (high : BitVec width) :
          (high <<< (2 ^ (level + 1) * 8 / 2) &&& hbMask (2 ^ (level + 1))).getLsbD
            (byte * 8 + bit) = ((high <<< (2 ^ level * 8)).getLsbD (byte * 8 + bit) &&
              decide (2 ^ level * 8 ≤ byte * 8 + bit)) := by
        rw [BitVec.getLsbD_and, getLsbD_hbMask (by omega), half_bits]
        congr 2
        apply propext
        omega
      rw [mbswap, BitVec.getLsbD_or, masked, half_bits, BitVec.getLsbD_shiftLeft]
      by_cases lower : byte < 2 ^ level
      · rw [ih (by omega) lower, BitVec.getLsbD_and, getLsbD_lbMask (by omega),
          BitVec.getLsbD_ushiftRight]
        have first : 2 ^ level * 8 + ((2 ^ level - 1 - byte) * 8 + bit) =
            (2 ^ (level + 1) - 1 - byte) * 8 + bit := by omega
        have below : (2 ^ level - 1 - byte) * 8 + bit < 2 ^ level * 8 := by omega
        have outside : ¬ 2 ^ level * 8 ≤ byte * 8 + bit := by omega
        simp [first, below, outside]
      · have shifted : byte * 8 + bit - 2 ^ level * 8 = (byte - 2 ^ level) * 8 + bit := by omega
        have mirrored : 2 ^ level - 1 - (byte - 2 ^ level) = 2 ^ (level + 1) - 1 - byte := by omega
        have zero : (mbswap level (d >>> (2 ^ level * 8) &&& lbMask (2 ^ (level + 1)))).getLsbD
            (byte * 8 + bit) = false := by
          apply getLsbD_mbswap_of_le
          · intro _ high far
            by_cases reach : high < width
            · rw [BitVec.getLsbD_and, getLsbD_lbMask reach]
              simp [Nat.not_lt.mpr far]
            · exact BitVec.getLsbD_of_ge _ _ (by omega)
          · omega
        rw [zero, shifted, ih (by omega) (by omega), mirrored]
        have inside : byte * 8 + bit < width := by omega
        have high : ¬ byte * 8 + bit < 2 ^ level * 8 := by omega
        simp only [inside, high, decide_true, decide_false, Bool.not_false, Bool.and_self,
          Bool.true_and, Bool.false_or, Nat.not_lt.mp high, Bool.and_true]

/-- Swapping all bytes of a value twice gives the value back. -/
theorem mbswap_mbswap {width level : Nat} (whole : width = 2 ^ level * 8) (d : BitVec width) :
    mbswap level (mbswap level d) = d := by
  apply BitVec.eq_of_getLsbD_eq
  intro position inside
  have parts : position = position / 8 * 8 + position % 8 := by omega
  rw [parts, getLsbD_mbswap (by omega) (by omega) (by omega),
    getLsbD_mbswap (by omega) (by omega) (by omega)]
  congr 2
  omega

/-- `bswap` swaps all bytes of its type, `N = sizeof( T )`. -/
def bswap {width : Nat} (d : BitVec width) : BitVec width := mbswap (Nat.log2 (width / 8)) d

/-- `MBA_BYTE_ORDER`, the order of bytes on the machine. -/
inductive ByteOrder where
  | littleEndian
  | bigEndian
  deriving DecidableEq, Repr

/-- `uint16_net_t`, `uint32_net_t` and `uint64_net_t` are types of their own. -/
structure NetInt (width : Nat) where
  raw : BitVec width
  deriving DecidableEq, Repr

def toNetOrder {width : Nat} (order : ByteOrder) (hostRep : BitVec width) : NetInt width :=
  match order with
  | .littleEndian => ⟨bswap hostRep⟩
  | .bigEndian => ⟨hostRep⟩

def toHostOrder {width : Nat} (order : ByteOrder) (netRep : NetInt width) : BitVec width :=
  match order with
  | .littleEndian => bswap netRep.raw
  | .bigEndian => netRep.raw

/-- A type of `2 ^ level` bytes has `level` halvings. -/
theorem bswap_eq {width level : Nat} (whole : width = 2 ^ level * 8) (d : BitVec width) :
    bswap d = mbswap level d := by
  have sized : Nat.log2 (width / 8) = level := by
    rw [whole, Nat.mul_div_cancel _ (by omega), Nat.log2_two_pow]
  rw [bswap, sized]

theorem toHostOrder_toNetOrder {width : Nat} (level : Nat) (whole : width = 2 ^ level * 8)
    (order : ByteOrder) (hostRep : BitVec width) :
    toHostOrder order (toNetOrder order hostRep) = hostRep := by
  cases order with
  | littleEndian =>
      change bswap (bswap hostRep) = hostRep
      rw [bswap_eq whole, bswap_eq whole, mbswap_mbswap whole]
  | bigEndian => rfl

theorem toNetOrder_toHostOrder {width : Nat} (level : Nat) (whole : width = 2 ^ level * 8)
    (order : ByteOrder) (netRep : NetInt width) :
    toNetOrder order (toHostOrder order netRep) = netRep := by
  cases order with
  | littleEndian =>
      change NetInt.mk (bswap (bswap netRep.raw)) = netRep
      rw [bswap_eq whole, bswap_eq whole, mbswap_mbswap whole]
  | bigEndian => rfl

/-- The byte at a place, counted from the least significant one. -/
def byteAt {width : Nat} (d : BitVec width) (place : Nat) : BitVec 8 := d.extractLsb' (place * 8) 8

theorem byteAt_mbswap {width level place : Nat} {d : BitVec width} (fits : 2 ^ level * 8 ≤ width)
    (present : place < 2 ^ level) : byteAt (mbswap level d) place = byteAt d (2 ^ level - 1 - place) := by
  apply BitVec.eq_of_getLsbD_eq
  intro bit small
  simp only [byteAt, BitVec.getLsbD_extractLsb', small, decide_true, Bool.true_and]
  exact getLsbD_mbswap fits present small

theorem byteAt_mbswap_above {width level place : Nat} {d : BitVec width} (above : 2 ^ level ≤ place)
    (clean : level = 0 → ∀ place, 2 ^ level ≤ place → byteAt d place = 0) :
    byteAt (mbswap level d) place = 0 := by
  apply BitVec.eq_of_getLsbD_eq
  intro bit small
  simp only [byteAt, BitVec.getLsbD_extractLsb', small, decide_true, Bool.true_and]
  rw [BitVec.ofNat_eq_ofNat, BitVec.getLsbD_zero]
  apply getLsbD_mbswap_of_le
  · intro single high far
    have zero := congrArg (BitVec.getLsbD · (high % 8)) (clean single (high / 8) (by omega))
    have parts : high / 8 * 8 + high % 8 = high := by omega
    simpa [byteAt, Nat.mod_lt, parts] using zero
  · omega

/-- In a type of `2 ^ (level + more)` bytes the swap of `2 ^ level` bytes mirrors them, whatever lies
above, and only the swap of a single byte lets anything above it through. The swap of a whole value undoes
itself, and so do both changes of the byte order. -/
theorem byteSwap_laws (level more : Nat) :
    (∀ d : BitVec (2 ^ (level + more) * 8),
      (∀ place < 2 ^ level, byteAt (mbswap level d) place = byteAt d (2 ^ level - 1 - place)) ∧
      ((level = 0 → ∀ place, 2 ^ level ≤ place → byteAt d place = 0) →
        ∀ place, 2 ^ level ≤ place → byteAt (mbswap level d) place = 0)) ∧
    (∀ d : BitVec (2 ^ level * 8), bswap d = mbswap level d ∧ bswap (bswap d) = d) ∧
    (∀ hostRep : BitVec (2 ^ level * 8),
      toHostOrder .littleEndian (toNetOrder .littleEndian hostRep) = hostRep) ∧
    ∀ netRep : NetInt (2 ^ level * 8),
      toNetOrder .littleEndian (toHostOrder .littleEndian netRep) = netRep := by
  refine ⟨fun d => ⟨fun place present => ?_, fun clean place above => ?_⟩, fun d => ?_,
    fun hostRep => ?_, fun netRep => ?_⟩
  · have fits : 2 ^ level * 8 ≤ 2 ^ (level + more) * 8 :=
      Nat.mul_le_mul_right 8 (Nat.pow_le_pow_right (by decide) (Nat.le_add_right level more))
    exact byteAt_mbswap fits present
  · exact byteAt_mbswap_above above clean
  · rw [bswap_eq rfl, bswap_eq rfl]
    exact ⟨rfl, mbswap_mbswap rfl d⟩
  · exact toHostOrder_toNetOrder level rfl .littleEndian hostRep
  · exact toNetOrder_toHostOrder level rfl .littleEndian netRep

/-- The bytes of a value, least significant first. -/
def bytes {width : Nat} (d : BitVec width) : List UInt8 :=
  (List.range (width / 8)).map fun index => UInt8.ofBitVec (d.extractLsb' (index * 8) 8)

/-- The bytes of a value in memory, lowest address first. -/
def memory {width : Nat} (order : ByteOrder) (d : BitVec width) : List UInt8 :=
  match order with
  | .littleEndian => bytes d
  | .bigEndian => (bytes d).reverse

theorem length_bytes {width : Nat} (d : BitVec width) : (bytes d).length = width / 8 := by
  simp [bytes]

/-- The swap reverses the bytes of a value. -/
theorem bytes_bswap {width level : Nat} (whole : width = 2 ^ level * 8) (d : BitVec width) :
    bytes (bswap d) = (bytes d).reverse := by
  apply List.ext_getElem
  · rw [List.length_reverse, length_bytes, length_bytes]
  intro index present _
  rw [length_bytes] at present
  rw [List.getElem_reverse]
  simp only [bytes, List.getElem_map, List.getElem_range, List.length_map, List.length_range]
  congr 1
  apply BitVec.eq_of_getLsbD_eq
  intro bit small
  rw [bswap_eq whole]
  simp only [BitVec.getLsbD_extractLsb', small, decide_true, Bool.true_and]
  rw [getLsbD_mbswap (by omega) (by omega) small]
  congr 2
  omega

/-- A value in network order has its most significant byte at the lowest address. -/
theorem memory_toNetOrder {width : Nat} (level : Nat) (whole : width = 2 ^ level * 8)
    (order : ByteOrder) (hostRep : BitVec width) :
    memory order (toNetOrder order hostRep).raw = (bytes hostRep).reverse := by
  cases order with
  | littleEndian => exact bytes_bswap whole hostRep
  | bigEndian => rfl

end MartCommon.Netlib

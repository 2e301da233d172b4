import MartCommon.Netlib.Ip

namespace MartCommon.Netlib.Ip

open Library Common

/-- Four texts that dots separate. -/
structure Dotted where
  first : Text
  second : Text
  third : Text
  fourth : Text

namespace Dotted

def text (dotted : Dotted) : Text :=
  dotted.first ++ dot :: (dotted.second ++ dot :: (dotted.third ++ dot :: dotted.fourth))

def blocks (dotted : Dotted) : List Text :=
  [dotted.first, dotted.second, dotted.third, dotted.fourth]

/-- `b0*2^24 + b1*2^16 + b2*2^8 + b3` -/
def value (dotted : Dotted) : Nat :=
  Decimal.value dotted.first * 2 ^ 24 + Decimal.value dotted.second * 2 ^ 16 +
    Decimal.value dotted.third * 2 ^ 8 + Decimal.value dotted.fourth

/-- At most three digits with a value of at most 255, and possibly none. -/
def Short (block : Text) : Prop :=
  block.length ≤ 3 ∧ (∀ char ∈ block, Decimal.isDigit char = true) ∧ Decimal.value block ≤ 255

/-- The intended grammar asks for at least one digit in each block. -/
def Valid (dotted : Dotted) : Prop :=
  ∀ block ∈ dotted.blocks, 1 ≤ block.length ∧ Short block

end Dotted

namespace ImplAddrV4

/-- Positions without a dot leave the locals of the loop as they are. -/
theorem splitStep_skips {str : Text} {positions : List Nat} (state : SplitState)
    (skipped : ∀ pos ∈ positions, str[pos]? ≠ some dot) :
    positions.foldl (splitStep str) state = state := by
  induction positions with
  | nil => rfl
  | cons pos rest ih =>
      rw [List.foldl_cons, splitStep, if_neg (skipped pos (by simp))]
      exact ih fun later member => skipped later (by simp [member])

/-- The locals after the positions from `front` to the end of the string. -/
def splitFrom (str front : Text) (state : SplitState) : SplitState :=
  (List.range' front.length (str.length - front.length)).foldl (splitStep str) state

/-- Over a block without dots and the dot behind it, the loop stores the block. -/
theorem splitFrom_block {str front block : Text} {state : SplitState} (back : Text)
    (parts : str = front ++ (block ++ dot :: back)) (dotless : dot ∉ block)
    (start : state.start = front.length) :
    splitFrom str front state = splitFrom str (front ++ (block ++ [dot]))
      { ret := state.ret.set state.cnt block
        cnt := state.cnt + 1
        start := (front ++ (block ++ [dot])).length } := by
  have size : str.length - front.length =
      block.length + (1 + (str.length - (front ++ (block ++ [dot])).length)) := by
    rw [parts]
    simp only [List.length_append, List.length_cons, List.length_nil]
    omega
  have next : front.length + block.length + 1 = (front ++ (block ++ [dot])).length := by
    simp only [List.length_append, List.length_cons, List.length_nil]
    omega
  have found : str[front.length + block.length]? = some dot := by
    rw [parts, List.getElem?_append_right (by omega), List.getElem?_append_right (by omega)]
    simp
  have cut : substr str front.length block.length = block := by
    rw [substr, parts, List.drop_left, List.take_left]
  have stored : splitStep str state (front.length + block.length) =
      { ret := state.ret.set state.cnt block
        cnt := state.cnt + 1
        start := (front ++ (block ++ [dot])).length } := by
    rw [splitStep, if_pos found, start, Nat.add_sub_cancel_left, cut, next]
  rw [splitFrom, size, ← List.range'_append_1, ← List.range'_append_1, List.foldl_append,
    List.foldl_append, splitStep_skips state, List.range'_one, List.foldl_cons, List.foldl_nil,
    stored, next]
  · rfl
  · intro pos member
    rw [List.mem_range'_1] at member
    rw [parts, List.getElem?_append_right (by omega), List.getElem?_append_left (by omega)]
    intro found
    exact dotless (List.mem_of_getElem? found)

/-- Over a last block without dots, the loop changes nothing. -/
theorem splitFrom_last {str front : Text} (block : Text) (state : SplitState) (parts : str = front ++ block)
    (dotless : dot ∉ block) : splitFrom str front state = state := by
  apply splitStep_skips
  intro pos member
  rw [List.mem_range'_1] at member
  rw [parts, List.getElem?_append_right (by omega)]
  intro found
  exact dotless (List.mem_of_getElem? found)

/-- The loop cuts a text with three dots into its four blocks. -/
theorem splitBlocksUnchecked_text (dotted : Dotted)
    (dotless : ∀ block ∈ dotted.blocks, dot ∉ block) :
    splitBlocksUnchecked dotted.text = dotted.blocks := by
  obtain ⟨first, second, third, fourth⟩ := dotted
  simp only [Dotted.blocks, List.forall_mem_cons, List.not_mem_nil, false_implies, implies_true,
    and_true] at dotless
  obtain ⟨noFirst, noSecond, noThird, noFourth⟩ := dotless
  simp only [Dotted.text, Dotted.blocks]
  generalize whole : first ++ dot :: (second ++ dot :: (third ++ dot :: fourth)) = str
  have scanned : splitFrom str [] {} =
      { ret := [first, second, third, []]
        cnt := 3
        start := ([] ++ (first ++ [dot]) ++ (second ++ [dot]) ++ (third ++ [dot])).length } := by
    rw [splitFrom_block (second ++ dot :: (third ++ dot :: fourth)) (by simp [← whole])
        noFirst rfl,
      splitFrom_block (third ++ dot :: fourth) (by simp [← whole]) noSecond rfl,
      splitFrom_block fourth (by simp [← whole]) noThird rfl,
      splitFrom_last fourth _ (by simp [← whole]) noFourth]
    rfl
  have rest : substrFrom str ([] ++ (first ++ [dot]) ++ (second ++ [dot]) ++ (third ++ [dot])).length =
      fourth := by
    have parts : str = ([] ++ (first ++ [dot]) ++ (second ++ [dot]) ++ (third ++ [dot])) ++ fourth := by
      simp [← whole]
    rw [substrFrom, substr, parts, List.drop_left, List.take_of_length_le]
    simp only [List.length_append]
    omega
  change (splitFrom str [] {}).ret.set 3 (substrFrom str (splitFrom str [] {}).start) = _
  rw [scanned, rest]
  rfl

/-- A string with a dot splits at its first one. -/
theorem exists_block {str : Text} {dots : Nat} (counted : str.count dot = dots + 1) :
    ∃ block rest, str = block ++ dot :: rest ∧ dot ∉ block ∧ rest.count dot = dots := by
  have member : dot ∈ str := List.count_pos_iff.mp (by omega)
  obtain ⟨block, rest, parts, dotless⟩ := List.eq_append_cons_of_mem member
  refine ⟨block, rest, parts, dotless, ?_⟩
  rw [parts, List.count_append, List.count_cons_self, List.count_eq_zero_of_not_mem dotless] at counted
  omega

/-- A string with three dots is a dotted text. -/
theorem exists_dotted {str : Text} (counted : str.count dot = 3) :
    ∃ dotted : Dotted, str = dotted.text ∧ ∀ block ∈ dotted.blocks, dot ∉ block := by
  obtain ⟨first, afterFirst, partsFirst, noFirst, countFirst⟩ := exists_block counted
  obtain ⟨second, afterSecond, partsSecond, noSecond, countSecond⟩ := exists_block countFirst
  obtain ⟨third, fourth, partsThird, noThird, countThird⟩ := exists_block countSecond
  have noFourth : dot ∉ fourth := List.count_eq_zero.mp countThird
  refine ⟨⟨first, second, third, fourth⟩, ?_, ?_⟩
  · rw [partsFirst, partsSecond, partsThird]
    rfl
  · simp [Dotted.blocks, noFirst, noSecond, noThird, noFourth]

/-- A digit is not a dot. -/
theorem dot_notMem {block : Text} (digits : ∀ char ∈ block, Decimal.isDigit char = true) :
    dot ∉ block := by
  intro member
  have := digits dot member
  contradiction

/-- On digits, a block parses to its decimal value when it is short enough and small enough. -/
theorem parseBlock_digits {block : Text} (digits : ∀ char ∈ block, Decimal.isDigit char = true) :
    parseBlock block =
      if block.length ≤ 3 ∧ Decimal.value block ≤ 255 then
        some (BitVec.ofNat 32 (Decimal.value block))
      else none := by
  unfold parseBlock
  by_cases short : block.length ≤ 3
  · have number : toIntegralUnsafe .uint32 block = Decimal.value block :=
      toIntegralUnsafe_short rfl (by decide) (by decide) short digits
    rw [if_neg (by omega), number]
    by_cases small : Decimal.value block ≤ 255
    · rw [if_neg (by omega), if_pos ⟨short, small⟩, BitVec.ofInt_natCast]
    · rw [if_pos (by omega), if_neg (by omega)]
  · rw [if_pos (by omega), if_neg (by omega)]

/-- The next block takes the low byte that the shift makes free. -/
theorem shift_or {accum number : Nat} (small : number ≤ 255) :
    BitVec.ofNat 32 accum <<< 8 ||| BitVec.ofNat 32 number =
      BitVec.ofNat 32 (accum * 256 + number) := by
  have joined : accum <<< 8 ||| number = accum * 256 + number := by
    rw [← Nat.shiftLeft_add_eq_or_of_lt (by omega), Nat.shiftLeft_eq]
  rw [← joined, BitVec.ofNat_or]
  congr 1
  apply BitVec.eq_of_toNat_eq
  simp [Nat.shiftLeft_eq, Nat.mul_mod]

/-- On digits, the accumulator takes one byte for each block, if all blocks are short. -/
theorem accumulate_eq_some_iff {blocks : List Text} {value : BitVec 32} (accum : Nat)
    (digits : ∀ block ∈ blocks, ∀ char ∈ block, Decimal.isDigit char = true) :
    accumulate (BitVec.ofNat 32 accum) blocks = some value ↔
      (∀ block ∈ blocks, Dotted.Short block) ∧
        value = BitVec.ofNat 32
          (blocks.foldl (fun number block => number * 256 + Decimal.value block) accum) := by
  induction blocks generalizing accum with
  | nil => simp [accumulate, eq_comm]
  | cons block rest ih =>
      have digitsBlock := digits block (by simp)
      rw [accumulate, parseBlock_digits digitsBlock, List.forall_mem_cons, List.foldl_cons]
      by_cases short : block.length ≤ 3 ∧ Decimal.value block ≤ 255
      · rw [if_pos short]
        simp only [shift_or short.2]
        rw [ih (accum * 256 + Decimal.value block) fun other member => digits other (by simp [member])]
        have shortBlock : Dotted.Short block := ⟨short.1, digitsBlock, short.2⟩
        simp only [shortBlock, true_and]
      · rw [if_neg short]
        simp only [reduceCtorEq, false_iff]
        rintro ⟨⟨⟨fits, _, small⟩, _⟩, _⟩
        exact short ⟨fits, small⟩

theorem isMalformed_eq_false_iff (str : Text) :
    isMalformed str = false ↔ (7 ≤ str.length ∧ str.length ≤ 15) ∧
      (∀ char ∈ str, Decimal.isDigit char = true ∨ char = dot) ∧ str.count dot = 3 := by
  have chars : hasInvalidChar str = false ↔
      ∀ char ∈ str, Decimal.isDigit char = true ∨ char = dot := by
    unfold hasInvalidChar
    rw [List.any_eq_false]
    apply forall₂_congr
    intro char _
    rw [Bool.not_eq_true, Bool.not_eq_false', Bool.or_eq_true, beq_iff_eq]
  have counted : hasWrongBlockCount str = false ↔ str.count dot = 3 := by
    unfold hasWrongBlockCount
    rw [bne_eq_false_iff_eq]
  have sized : hasWrongLength str = false ↔ 7 ≤ str.length ∧ str.length ≤ 15 := by
    unfold hasWrongLength
    rw [Bool.or_eq_false_iff, decide_eq_false_iff_not, decide_eq_false_iff_not]
    omega
  rw [isMalformed, Bool.or_eq_false_iff, Bool.or_eq_false_iff, sized, chars, counted, and_assoc]

/-- A dotted text of short blocks has three dots and digits otherwise. -/
theorem text_wellFormed {dotted : Dotted} (short : ∀ block ∈ dotted.blocks, Dotted.Short block) :
    dotted.text.length ≤ 15 ∧
      (∀ char ∈ dotted.text, Decimal.isDigit char = true ∨ char = dot) ∧
      dotted.text.count dot = 3 := by
  obtain ⟨first, second, third, fourth⟩ := dotted
  simp only [Dotted.blocks, List.forall_mem_cons, List.not_mem_nil, false_implies, implies_true,
    and_true] at short
  obtain ⟨⟨sizeFirst, digitsFirst, _⟩, ⟨sizeSecond, digitsSecond, _⟩, ⟨sizeThird, digitsThird, _⟩,
    ⟨sizeFourth, digitsFourth, _⟩⟩ := short
  simp only [Dotted.text]
  refine ⟨?_, ?_, ?_⟩
  · simp only [List.length_append, List.length_cons]
    omega
  · intro char member
    simp only [List.mem_append, List.mem_cons] at member
    rcases member with inside | rfl | inside | rfl | inside | rfl | inside
    · exact .inl (digitsFirst char inside)
    · exact .inr rfl
    · exact .inl (digitsSecond char inside)
    · exact .inr rfl
    · exact .inl (digitsThird char inside)
    · exact .inr rfl
    · exact .inl (digitsFourth char inside)
  · simp only [List.count_append, List.count_cons_self,
      List.count_eq_zero_of_not_mem (dot_notMem digitsFirst),
      List.count_eq_zero_of_not_mem (dot_notMem digitsSecond),
      List.count_eq_zero_of_not_mem (dot_notMem digitsThird),
      List.count_eq_zero_of_not_mem (dot_notMem digitsFourth)]

/-- The bytes of the blocks make up the value of the address. -/
theorem foldl_blocks (dotted : Dotted) :
    dotted.blocks.foldl (fun number block => number * 256 + Decimal.value block) 0 =
      dotted.value := by
  simp only [Dotted.blocks, List.foldl_cons, List.foldl_nil, Dotted.value]
  omega

/-- The parser accepts the dotted texts of short blocks, also of empty ones, from seven characters
on. -/
theorem parseAddress_eq_some_iff (str : Text) (value : BitVec 32) :
    parseAddress str = some value ↔
      ∃ dotted : Dotted, str = dotted.text ∧ 7 ≤ str.length ∧
        (∀ block ∈ dotted.blocks, Dotted.Short block) ∧ value = BitVec.ofNat 32 dotted.value := by
  constructor
  · intro parsed
    rw [parseAddress, Option.ite_none_left_eq_some, Bool.not_eq_true,
      isMalformed_eq_false_iff] at parsed
    obtain ⟨⟨⟨long, _⟩, chars, counted⟩, accumulated⟩ := parsed
    obtain ⟨dotted, rfl, dotless⟩ := exists_dotted counted
    have digits : ∀ block ∈ dotted.blocks, ∀ char ∈ block, Decimal.isDigit char = true := by
      intro block member char inside
      have within : char ∈ dotted.text := by
        simp only [Dotted.blocks, List.mem_cons, List.not_mem_nil, or_false] at member
        simp only [Dotted.text, List.mem_append, List.mem_cons]
        rcases member with rfl | rfl | rfl | rfl <;> simp [inside]
      rcases chars char within with digit | rfl
      · exact digit
      · exact absurd inside (dotless block member)
    rw [splitBlocksUnchecked_text dotted dotless] at accumulated
    obtain ⟨short, same⟩ := (accumulate_eq_some_iff 0 digits).mp accumulated
    rw [foldl_blocks] at same
    exact ⟨dotted, rfl, long, short, same⟩
  · rintro ⟨dotted, rfl, long, short, rfl⟩
    obtain ⟨size, chars, counted⟩ := text_wellFormed short
    have digits : ∀ block ∈ dotted.blocks, ∀ char ∈ block, Decimal.isDigit char = true :=
      fun block member => (short block member).2.1
    have wellFormed := (isMalformed_eq_false_iff dotted.text).mpr ⟨⟨long, size⟩, chars, counted⟩
    rw [parseAddress, wellFormed, splitBlocksUnchecked_text dotted fun block member =>
      dot_notMem (digits block member)]
    exact (accumulate_eq_some_iff 0 digits).mpr ⟨short, by rw [foldl_blocks]⟩

/-- A text separates into dotless blocks in one way only. -/
theorem dotted_unique {one other : Dotted} (same : one.text = other.text)
    (dotless : ∀ block ∈ one.blocks, dot ∉ block) (dotless' : ∀ block ∈ other.blocks, dot ∉ block) :
    one = other := by
  have blocks : one.blocks = other.blocks := by
    rw [← splitBlocksUnchecked_text one dotless, same, splitBlocksUnchecked_text other dotless']
  obtain ⟨first, second, third, fourth⟩ := one
  obtain ⟨first', second', third', fourth'⟩ := other
  simpa [Dotted.blocks] using blocks

end ImplAddrV4

open ImplAddrV4

/-- A text is dotted with blocks of at most three digits and values of at most 255, has at least
seven characters, and one of its blocks is empty. -/
def HasEmptyBlock (str : Text) : Prop :=
  ∃ dotted : Dotted, str = dotted.text ∧ 7 ≤ str.length ∧
    (∀ block ∈ dotted.blocks, Dotted.Short block) ∧ [] ∈ dotted.blocks

/-- The parsers accept a string exactly when it is in the intended grammar, and the address has the
value of its blocks. -/
def MeetsGrammar (order : ByteOrder) (str : Text) : Prop :=
  ((tryParseV4Address order str).isSome = true ↔
      ∃ dotted : Dotted, str = dotted.text ∧ dotted.Valid) ∧
    (∀ dotted : Dotted, str = dotted.text → dotted.Valid →
      ∀ address, tryParseV4Address order str = some address →
        (address.inHostOrder order).toNat = dotted.value) ∧
    isValidV4Address str = (tryParseV4Address order str).isSome ∧
    ((∃ address, AddressV4.ofString order str = .ok address) ↔
      (tryParseV4Address order str).isSome = true)

theorem tryParseV4Address_isSome (order : ByteOrder) (str : Text) :
    (tryParseV4Address order str).isSome = (parseAddress str).isSome := by
  unfold tryParseV4Address
  cases parseAddress str <;> rfl

/-- The throwing constructor succeeds with the same address as the optional parser. -/
theorem ofString_eq_ok_iff (order : ByteOrder) (str : Text) (address : AddressV4) :
    AddressV4.ofString order str = .ok address ↔ tryParseV4Address order str = some address := by
  unfold AddressV4.ofString AddressV4.parseIpV4String tryParseV4Address
  cases parseAddress str with
  | none => simp [AddressV4.throwParseIpV4StringError, Except.map]
  | some value => simp [Except.map]

/-- A valid dotted text has at least seven characters. -/
theorem Dotted.Valid.length {dotted : Dotted} (valid : dotted.Valid) : 7 ≤ dotted.text.length := by
  obtain ⟨first, second, third, fourth⟩ := dotted
  simp only [Dotted.Valid, Dotted.blocks, List.forall_mem_cons, List.not_mem_nil, false_implies,
    implies_true, and_true] at valid
  simp only [Dotted.text, List.length_append, List.length_cons]
  omega

/-- The value of short blocks fits into 32 bits. -/
theorem Dotted.value_lt {dotted : Dotted} (short : ∀ block ∈ dotted.blocks, Dotted.Short block) :
    dotted.value < 2 ^ 32 := by
  obtain ⟨first, second, third, fourth⟩ := dotted
  simp only [Dotted.blocks, List.forall_mem_cons, List.not_mem_nil, false_implies, implies_true,
    and_true] at short
  obtain ⟨⟨_, _, smallFirst⟩, ⟨_, _, smallSecond⟩, ⟨_, _, smallThird⟩, ⟨_, _, smallFourth⟩⟩ := short
  simp only [Dotted.value]
  omega

/-- A valid dotted text parses to the address with the value of its blocks. -/
theorem tryParseV4Address_text (order : ByteOrder) {dotted : Dotted} (valid : dotted.Valid) :
    tryParseV4Address order dotted.text =
      some (.ofHost order (BitVec.ofNat 32 dotted.value)) := by
  have parsed := (parseAddress_eq_some_iff dotted.text _).mpr
    ⟨dotted, rfl, valid.length, fun block member => (valid block member).2, rfl⟩
  rw [tryParseV4Address, parsed]

theorem inHostOrder_ofHost (order : ByteOrder) (addrH : BitVec 32) :
    (AddressV4.ofHost order addrH).inHostOrder order = addrH :=
  toHostOrder_toNetOrder 2 rfl order addrH

/-- The parsers accept a string with an empty block, which is not in the grammar. -/
theorem HasEmptyBlock.violates {str : Text} (empty : HasEmptyBlock str) (order : ByteOrder) :
    ¬ MeetsGrammar order str := by
  rintro ⟨accepts, _, _, _⟩
  obtain ⟨dotted, rfl, long, short, empty⟩ := empty
  have parsed := (parseAddress_eq_some_iff dotted.text _).mpr ⟨dotted, rfl, long, short, rfl⟩
  rw [tryParseV4Address_isSome, parsed] at accepts
  obtain ⟨other, same, valid⟩ := accepts.mp rfl
  have unique : dotted = other := by
    apply dotted_unique same
    · exact fun block member => dot_notMem (short block member).2.1
    · exact fun block member => dot_notMem (valid block member).2.2.1
  subst unique
  have := (valid [] empty).1
  contradiction

/-- The filters accept the intended grammar and the strings with an empty block in addition. -/
theorem meetsGrammar_iff (order : ByteOrder) (str : Text) :
    MeetsGrammar order str ↔ ¬ HasEmptyBlock str := by
  refine ⟨fun meets empty => empty.violates order meets, fun filled => ⟨⟨?_, ?_⟩, ?_, ?_, ?_⟩⟩
  · intro accepted
    rw [tryParseV4Address_isSome, Option.isSome_iff_exists] at accepted
    obtain ⟨value, parsed⟩ := accepted
    obtain ⟨dotted, rfl, long, short, _⟩ := (parseAddress_eq_some_iff str value).mp parsed
    refine ⟨dotted, rfl, ?_⟩
    intro block member
    refine ⟨?_, short block member⟩
    by_contra empty
    have nothing : block = [] := List.length_eq_zero_iff.mp (by omega)
    exact filled ⟨dotted, rfl, long, short, nothing ▸ member⟩
  · rintro ⟨dotted, rfl, valid⟩
    rw [tryParseV4Address_text order valid]
    rfl
  · rintro dotted rfl valid address parsed
    rw [tryParseV4Address_text order valid, Option.some.injEq] at parsed
    rw [← parsed, inHostOrder_ofHost, BitVec.toNat_ofNat]
    exact Nat.mod_eq_of_lt (Dotted.value_lt fun block member => (valid block member).2)
  · rw [tryParseV4Address_isSome]
    rfl
  · rw [Option.isSome_iff_exists]
    exact exists_congr fun address => ofString_eq_ok_iff order str address

/-- The text `1...234` has two empty blocks. -/
theorem meetsGrammar_emptyBlocks : ¬ MeetsGrammar .littleEndian (ascii "1...234") := by
  apply HasEmptyBlock.violates
  refine ⟨⟨ascii "1", [], [], ascii "234"⟩, by decide, by decide, ?_, by decide⟩
  unfold Dotted.Short
  decide +kernel

end MartCommon.Netlib.Ip
